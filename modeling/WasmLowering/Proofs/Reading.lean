/-
# Reading back what is written

A reader takes bytes as something with a property if it does so wherever the
bytes stand in a module and whatever follows them, and takes no byte more.  In
this form what is read back composes like what is written:

| written                    | read by                | as                      |
|----------------------------|------------------------|-------------------------|
| `Leb128.unsigned n`        | `Reader.u32`, `u64`    | `n`, if it fits         |
| `Leb128.signed n`          | `Reader.s32`, `s64`    | `n`, if it fits         |
| `Encode.name s`            | `Reader.name`          | `s`, if it is not long  |
| `Encode.sized bytes`       | `Reader.sized`         | a slice of the bytes    |
| one item after the other   | `Reader.many`          | the items               |

The offset is known to the reader and may be part of what it gives, so what is
read is told by a property and not by a value.
-/

import WasmLowering.Wasm.Encode
import WasmLowering.Wasm.TypeReader

namespace WasmLowering
namespace Wasm

/-- A reader takes bytes as something with a property, wherever they stand and whatever follows. -/
def Reads {α : Type} (r : Reader α) (bytes : Bytes) (P : α → Prop) : Prop :=
  ∀ offset rest, ∃ a, r ⟨offset, bytes ++ rest⟩ = .ok (a, ⟨offset + bytes.length, rest⟩) ∧ P a

namespace Reads

variable {α β : Type} {r : Reader α} {bs cs : Bytes} {P : α → Prop} {Q : β → Prop}

/-- **Taking nothing.** -/
theorem pure {a : α} (h : P a) : Reads (Pure.pure a) [] P := fun _ _ => ⟨a, rfl, h⟩

/-- **One reader after the other** takes the bytes of the one and then those of the other. -/
theorem bind {f : α → Reader β} (h : Reads r bs P) (hf : ∀ a, P a → Reads (f a) cs Q) :
    Reads (r >>= f) (bs ++ cs) Q := by
  intro offset rest
  obtain ⟨a, hr, ha⟩ := h offset (cs ++ rest)
  obtain ⟨b, hb, hq⟩ := hf a ha (offset + bs.length) rest
  refine ⟨b, ?_, hq⟩
  show (r ⟨offset, bs ++ cs ++ rest⟩ >>= fun p => f p.1 p.2) = _
  rw [List.append_assoc, hr, List.length_append, ← Nat.add_assoc]
  exact hb

/-- **A reader that takes nothing** comes before one that does. -/
theorem bindNil {f : α → Reader β} (h : Reads r [] P) (hf : ∀ a, P a → Reads (f a) cs Q) :
    Reads (r >>= f) cs Q := bind h hf

/-- **A reader that takes nothing** comes after one that does. -/
theorem bindLast {f : α → Reader β} (h : Reads r bs P) (hf : ∀ a, P a → Reads (f a) [] Q) :
    Reads (r >>= f) bs Q := by
  rw [← List.append_nil bs]
  exact bind h hf

/-- **A result is made of what was read.** -/
theorem map {f : α → β} (h : Reads r bs P) (hf : ∀ a, P a → Q (f a)) :
    Reads (r >>= fun a => Pure.pure (f a)) bs Q :=
  h.bindLast fun a ha => .pure (hf a ha)

/-- **What is read has every weaker property.** -/
theorem mono {P' : α → Prop} (h : Reads r bs P) (hp : ∀ a, P a → P' a) : Reads r bs P' := by
  intro offset rest
  obtain ⟨a, hr, ha⟩ := h offset rest
  exact ⟨a, hr, hp a ha⟩

/-- **The offset** may be anything. -/
theorem position : Reads Reader.position [] fun _ => True := fun offset _ => ⟨offset, rfl, trivial⟩

/-- **A byte** is read as it is. -/
theorem byte (b : UInt8) : Reads Reader.byte [b] (· = b) := fun _ _ => ⟨b, rfl, rfl⟩

/-- **The first byte is taken** before the others. -/
theorem byteBind {b : UInt8} {f : UInt8 → Reader β} (h : Reads (f b) bs Q) :
    Reads (Reader.byte >>= f) (b :: bs) Q := by
  show Reads _ ([b] ++ bs) Q
  refine (byte b).bind ?_
  rintro _ rfl
  exact h

/-- **The first byte can be looked at** before it is taken. -/
theorem peekBind {b : UInt8} {f : UInt8 → Reader β} (h : Reads (f b) (b :: bs) Q) :
    Reads (Reader.peek >>= f) (b :: bs) Q := h

/-- **A check that passes** gives its result. -/
theorem check {offset : Nat} {x : Except Violation α} {a : α} (h : x = .ok a) :
    Reads (Reader.check offset x) [] (· = a) := by
  rw [h]
  exact .pure rfl

/-- **A refusal that is not due** is passed over. -/
theorem guarded {p : Prop} [Decidable p] {refusal : Reader α} (hp : ¬ p) (h : Reads r bs P) :
    Reads (if p then refusal else r) bs P := by
  rw [if_neg hp]
  exact h

end Reads

/-! ## Numbers -/

/-- The number of numbers in some whole groups of seven bits and some bits more. -/
def Leb128.room (lastBits : Nat) : (more : Nat) → Nat
  | 0 => Nat.pow 2 lastBits
  | more + 1 => 128 * room lastBits more

namespace Reads

theorem toNat_toUInt8 {n : Nat} (h : n < 256) : n.toUInt8.toNat = n :=
  UInt8.toNat_ofNat_of_lt h

/-- **Unsigned numbers are read back** if there is room for them. -/
theorem unsigned (e : VarInt) (lastBits : Nat) (hbits : Nat.pow 2 lastBits ≤ 128) :
    (more n : Nat) → n < Leb128.room lastBits more →
      Reads (Reader.unsigned e lastBits more) (Leb128.unsigned n) (· = n)
  | 0, n, h => by
    have hroom : n < Nat.pow 2 lastBits := h
    have hbyte : n.toUInt8.toNat = n := toNat_toUInt8 (by omega)
    rw [Leb128.unsigned, if_pos (by omega), Reader.unsigned]
    refine .bindNil .position fun here _ => .byteBind ?_
    rw [hbyte, if_pos hroom]
    exact .pure rfl
  | more + 1, n, h => by
    have hroom : n < 128 * Leb128.room lastBits more := h
    rw [Leb128.unsigned, Reader.unsigned]
    by_cases hn : n < 128
    · have hbyte : n.toUInt8.toNat = n := toNat_toUInt8 (by omega)
      rw [if_pos hn]
      refine .byteBind ?_
      rw [hbyte, if_pos hn]
      exact .pure rfl
    · have hbyte : (n % 128 + 128).toUInt8.toNat = n % 128 + 128 := toNat_toUInt8 (by omega)
      rw [if_neg hn]
      refine .byteBind ?_
      rw [hbyte, if_neg (by omega)]
      refine (unsigned e lastBits hbits more (n / 128) (by omega)).map ?_
      rintro _ rfl
      omega

/-- **Signed numbers are read back** if there is room for them on both sides of zero. -/
theorem signed (e : VarInt) (lastBits : Nat) (hbits : Nat.pow 2 (lastBits - 1) ≤ 64) :
    (more : Nat) → (n : Int) → -(Leb128.room (lastBits - 1) more : Int) ≤ n →
      n < Leb128.room (lastBits - 1) more →
      Reads (Reader.signed e lastBits more) (Leb128.signed n) (· = n)
  | 0, n, hlow, hhigh => by
    have hlow : -(Nat.pow 2 (lastBits - 1) : Int) ≤ n := hlow
    have hhigh : n < (Nat.pow 2 (lastBits - 1) : Int) := hhigh
    have hbyte : (n % 128).toNat.toUInt8.toNat = (n % 128).toNat := toNat_toUInt8 (by omega)
    have hvalue : Reader.low7 (n % 128).toNat = n := by
      unfold Reader.low7
      omega
    rw [Leb128.signed, if_pos (by omega), Reader.signed]
    refine .bindNil .position fun here _ => .byteBind ?_
    rw [hbyte]
    refine .guarded (by omega) ?_
    rw [hvalue]
    show Reads (if -(Nat.pow 2 (lastBits - 1) : Int) ≤ n ∧ n < (Nat.pow 2 (lastBits - 1) : Int) then
      Pure.pure n else _) _ _
    rw [if_pos ⟨hlow, hhigh⟩]
    exact .pure rfl
  | more + 1, n, hlow, hhigh => by
    have hlow : -((128 * Leb128.room (lastBits - 1) more : Nat) : Int) ≤ n := hlow
    have hhigh : n < ((128 * Leb128.room (lastBits - 1) more : Nat) : Int) := hhigh
    rw [Leb128.signed, Reader.signed]
    by_cases hn : -64 ≤ n ∧ n < 64
    · have hbyte : (n % 128).toNat.toUInt8.toNat = (n % 128).toNat := toNat_toUInt8 (by omega)
      rw [if_pos hn]
      refine .byteBind ?_
      rw [hbyte, if_pos (by omega)]
      refine .pure ?_
      unfold Reader.low7
      omega
    · have hbyte : (n % 128 + 128).toNat.toUInt8.toNat = (n % 128 + 128).toNat :=
        toNat_toUInt8 (by omega)
      rw [if_neg hn]
      refine .byteBind ?_
      rw [hbyte, if_neg (by omega)]
      refine (signed e lastBits hbits more (n / 128) (by omega) (by omega)).map ?_
      rintro _ rfl
      omega

/-- **A number below `2 ^ 32`** is read back. -/
theorem u32 {n : Nat} (h : n < 4294967296) : Reads Reader.u32 (Leb128.unsigned n) (· = n) :=
  unsigned .u32 4 (by decide) 4 n h

/-- **A number below `2 ^ 64`** is read back. -/
theorem u64 {n : Nat} (h : n < 18446744073709551616) : Reads Reader.u64 (Leb128.unsigned n) (· = n) :=
  unsigned .u64 1 (by decide) 9 n h

/-- **A word of 32 bits** is read back as the integer it stands for. -/
theorem s32 (w : BitVec 32) : Reads Reader.s32 (Leb128.signed w.toInt) (· = w.toInt) :=
  signed .s32 4 (by decide) 4 w.toInt w.le_toInt w.toInt_lt

/-- **A word of 64 bits** is read back as the integer it stands for. -/
theorem s64 (w : BitVec 64) : Reads Reader.s64 (Leb128.signed w.toInt) (· = w.toInt) :=
  signed .s64 1 (by decide) 9 w.toInt w.le_toInt w.toInt_lt

end Reads

/-! ## Bytes, names and lists -/

namespace Reads

/-- **A number of bytes** is cut out. -/
theorem take (bytes : Bytes) : Reads (Reader.take bytes.length) bytes (·.bytes = bytes) := by
  intro offset rest
  refine ⟨⟨offset, bytes⟩, ?_, rfl⟩
  show (if ((bytes ++ rest).take bytes.length).length < bytes.length then _ else (do
      set (⟨offset + bytes.length, (bytes ++ rest).drop bytes.length⟩ : Slice)
      return ⟨offset, (bytes ++ rest).take bytes.length⟩) : Reader Slice) _ = _
  rw [List.take_left, List.drop_left, if_neg (Nat.lt_irrefl _)]
  rfl

/-- **Bytes behind their number** are cut out. -/
theorem sized {bytes : Bytes} (h : bytes.length < 4294967296) :
    Reads Reader.sized (Encode.sized bytes) (·.bytes = bytes) := by
  refine (u32 h).bind ?_
  rintro _ rfl
  exact take bytes

/-- **A name is read back** unless it is too long. -/
theorem name {s : String} (h : (utf8 s).length ≤ Reader.nameLimit) :
    Reads Reader.name (Encode.name s) (· = s) := by
  have hlimit : Reader.nameLimit = 100000 := rfl
  refine (u32 (by omega)).bind ?_
  rintro _ rfl
  refine .guarded (Nat.not_lt.2 h) ?_
  refine (take (utf8 s)).bindLast fun content hcontent => ?_
  have hbytes : (⟨content.bytes.toArray⟩ : ByteArray) = s.toUTF8 := by rw [hcontent]; rfl
  have htext : String.fromUTF8? ⟨content.bytes.toArray⟩ = some s := by
    rw [hbytes]
    exact dif_pos s.isValidUTF8
  rw [htext]
  exact .pure rfl

variable {α β : Type} {item : Reader α} {enc : β → Bytes} {value : β → α}

/-- **Items are read one after the other,** each as the item that it is. -/
theorem many : (xs : List β) → (∀ x ∈ xs, Reads item (enc x) (· = value x)) →
    Reads (Reader.many item xs.length) (xs.flatMap enc) (· = xs.map value)
  | [], _ => .pure rfl
  | x :: xs, h => by
    rw [List.flatMap_cons]
    refine (h x List.mem_cons_self).bind ?_
    rintro _ rfl
    refine (many xs fun y hy => h y (List.mem_cons_of_mem _ hy)).map ?_
    rintro _ rfl
    rfl

/-- **A count below a limit** is read back. -/
theorem size {limit : Nat} (what : String) {n : Nat} (hlimit : limit < 4294967296) (h : n ≤ limit) :
    Reads (Reader.size limit what) (Leb128.unsigned n) (· = n) := by
  refine .bindNil .position fun here _ => ?_
  refine (u32 (by omega)).bindLast ?_
  rintro _ rfl
  exact .guarded (Nat.not_lt.2 h) (.pure rfl)

/-- **A list behind its length** is read back unless it is too long. -/
theorem limited {limit : Nat} (what : String) {xs : List β} (hlimit : limit < 4294967296)
    (hlength : xs.length ≤ limit) (h : ∀ x ∈ xs, Reads item (enc x) (· = value x)) :
    Reads (Reader.limited limit what item) (Encode.list enc xs) (· = xs.map value) := by
  refine (size what hlimit hlength).bind ?_
  rintro _ rfl
  exact many xs h

end Reads

/-! ## Types -/

namespace Reads

/-- **A kind is read back as its type.** -/
theorem valType (k : Kind) : Reads Reader.valType [kindByte k] (· = .ofKind k) := by
  refine .peekBind ?_
  rw [ValType.ofByte?_kindByte]
  exact .byteBind (.pure rfl)

end Reads

/-- A reader looks at bytes, gives something and leaves them. -/
def Looks {α : Type} (r : Reader α) (bytes : Bytes) (a : α) : Prop :=
  ∀ offset rest, r ⟨offset, bytes ++ rest⟩ = .ok (a, ⟨offset, bytes ++ rest⟩)

/-- **What was looked at is still to be read.** -/
theorem Looks.bind {α β : Type} {r : Reader α} {a : α} {bs : Bytes} {f : α → Reader β} {Q : β → Prop}
    (h : Looks r bs a) (hf : Reads (f a) bs Q) : Reads (r >>= f) bs Q := by
  intro offset rest
  obtain ⟨b, hb, hq⟩ := hf offset rest
  refine ⟨b, ?_, hq⟩
  show (r ⟨offset, bs ++ rest⟩ >>= fun p => f p.1 p.2) = _
  rw [h offset rest]
  exact hb

/-- **A mark that does not follow** is not taken. -/
theorem Looks.marked {mark b : UInt8} (hb : b ≠ mark) (bs : Bytes) :
    Looks (Reader.marked mark) (b :: bs) false := by
  intro offset rest
  show (if b = mark then (_ : Reader Bool) else Pure.pure false) ⟨offset, b :: bs ++ rest⟩ = _
  rw [if_neg hb]
  rfl

/-- **An index after a mark that does not follow** is not taken. -/
theorem Looks.link {mark b : UInt8} (hb : b ≠ mark) (bs : Bytes) :
    Looks (Reader.link mark) (b :: bs) none := by
  intro offset rest
  show (Reader.marked mark ⟨offset, b :: bs ++ rest⟩ >>= _) = _
  rw [Looks.marked hb bs offset rest]
  rfl

end Wasm
end WasmLowering
