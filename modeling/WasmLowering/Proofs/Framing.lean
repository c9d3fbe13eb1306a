/-
# Reading the frame back

A module is written as a header and sections, each behind its size.  They are
read back one by one, whatever follows them:

| written                          | read as                                         |
|----------------------------------|-------------------------------------------------|
| `Encode.header`                  | the header of a module                          |
| `Encode.sect id (Encode.list …)` | the number of items, and the bytes of the items |
| `Encode.sect 10 (Encode.list …)` | the contents of the function bodies             |

The code section is the only one whose items are cut apart at once.  Its reader
counts the bytes it has taken, so here offsets matter (`Reads.measured`).
-/

import WasmLowering.Proofs.Reading
import WasmLowering.Wasm.Payload

namespace WasmLowering
namespace Wasm

namespace Reads

variable {α β : Type} {bs cs : Bytes} {Q : β → Prop}

/-- **What comes next may be looked at whole.** -/
theorem ofGet {f : Slice → Reader β} {r : Reader β} (hf : ∀ offset rest, f ⟨offset, bs ++ rest⟩ = r)
    (h : Reads r bs Q) : Reads (get >>= f) bs Q := by
  intro offset rest
  obtain ⟨b, hb, hq⟩ := h offset rest
  refine ⟨b, ?_, hq⟩
  show f ⟨offset, bs ++ rest⟩ ⟨offset, bs ++ rest⟩ = _
  rw [hf]
  exact hb

/-- **Offsets tell how many bytes are taken** between them. -/
theorem measured {r : Reader α} {P : α → Prop} {f : Nat → α → Nat → Reader β} (h : Reads r bs P)
    (hf : ∀ start a, P a → Reads (f start a (start + bs.length)) cs Q) :
    Reads (Reader.position >>= fun start => r >>= fun a => Reader.position >>= fun stop => f start a stop)
      (bs ++ cs) Q := by
  intro offset rest
  obtain ⟨a, hr, ha⟩ := h offset (cs ++ rest)
  obtain ⟨b, hb, hq⟩ := hf offset a ha (offset + bs.length) rest
  refine ⟨b, ?_, hq⟩
  show (r ⟨offset, bs ++ cs ++ rest⟩ >>= fun p => f offset p.1 p.2.offset p.2) = _
  rw [List.append_assoc, hr, List.length_append, ← Nat.add_assoc]
  exact hb

/-- **A computation that succeeds** takes nothing. -/
theorem lift {x : Except Rejection α} {a : α} (h : x = .ok a) :
    Reads (liftM x : Reader α) [] (· = a) := by
  rw [h]
  exact .pure rfl

/-! ## Sections -/

/-- **The header is read back.** -/
theorem header : Reads Payload.header Encode.header (· = .module) := by
  show Reads _ (Encode.header.take 4 ++ Encode.header.drop 4) _
  refine (take (Encode.header.take 4)).bind fun magic hmagic => ?_
  refine .guarded (not_not_intro hmagic) ?_
  refine (take (Encode.header.drop 4)).bindLast fun version hversion => ?_
  rw [if_pos hversion]
  exact .pure rfl

/-- **The id and the size of a section are read back** if nothing around it ends before. -/
theorem sectionStart {id : UInt8} {size : Nat} (hid : id ≠ 0) (hid' : id.toNat < 128)
    (hsize : size < 4294967296) :
    Reads (Payload.readStart none) (id :: Leb128.unsigned size)
      (fun r => r.1 = id.toNat ∧ r.2.1 = size) := by
  refine .bindNil .position fun here _ => .ofGet (fun offset rest => if_neg ?_) (.byteBind ?_)
  · exact fun hmagic => hid (List.cons.inj hmagic).1
  · refine .guarded (Nat.not_le.2 hid') (.bindNil .position fun sizeAt _ => ?_)
    refine (u32 hsize).bindLast ?_
    rintro _ rfl
    exact .bindNil .position fun start _ => .guarded Bool.false_ne_true (.pure ⟨rfl, rfl⟩)

end Reads

/-- A payload is a section of items with the bytes of some items. -/
def Payload.IsItems {α : Type} (id : Nat) (enc : α → Bytes) (xs : List α) (payload : Payload) : Prop :=
  ∃ here offset, payload = .items id xs.length here ⟨offset, xs.flatMap enc⟩

/-- What has been read once a section of items is, if it comes at its place. -/
def Progress.after (p : Progress) (rank id count : Nat) : Progress :=
  Payload.count { p with rank } id count

namespace Reads

variable {α : Type} {enc : α → Bytes} {xs : List α} {p : Progress}

/-- **A section of items is read back** as the number of the items and their bytes. -/
theorem sectionItems {id rank : Nat} (hid : id ≠ 0 ∧ id ≠ 10 ∧ id ∈ Payload.counted)
    (hrank : Payload.rank? id = some rank) (hlater : p.rank < rank)
    (hdata : (p.after rank id xs.length).dataCount = none) (hcount : xs.length < 4294967296) :
    Reads (Payload.readSection p id (Encode.list enc xs).length) (Encode.list enc xs)
      (fun r => r.1.IsItems id enc xs ∧ r.2 = p.after rank id xs.length) := by
  obtain ⟨hzero, hcode, hcounted⟩ := hid
  unfold Payload.readSection
  rw [if_neg hzero, hrank]
  refine .guarded (Nat.not_le.2 hlater) ?_
  show Reads (if id = 10 then _ else _) _ _
  rw [if_neg hcode, if_pos hcounted]
  refine (take (Encode.list enc xs)).bindLast fun content hcontent => ?_
  obtain ⟨here, bytes⟩ := content
  obtain rfl : bytes = Encode.list enc xs := hcontent
  obtain ⟨_, hread, rfl⟩ := u32 hcount here (xs.flatMap enc)
  refine (lift hread).bindLast ?_
  rintro _ rfl
  have hmatch : (Payload.count { p with rank } id xs.length).dataMismatch? = none := by
    rw [Progress.dataMismatch?, show (Payload.count { p with rank } id xs.length).dataCount = none from hdata]
  simp only [hmatch]
  exact .pure ⟨⟨_, _, rfl⟩, rfl⟩

end Reads

/-! ## Function bodies -/

/-- The bytes of a body without their size. -/
def Encode.bodyContent (b : FuncBody) : Bytes :=
  Encode.list (fun r => Leb128.unsigned r.1 ++ [kindByte r.2]) (Encode.runs b.locals) ++ Encode.code b.code
    ++ [Encode.finishByte]

/-- A payload is the contents of some bodies. -/
def Payload.IsBodies (bs : List FuncBody) (payload : Payload) : Prop :=
  ∃ contents, payload = .bodies contents ∧ contents.map Slice.bytes = bs.map Encode.bodyContent

/-- **Bytes are no more than the bytes behind their number.** -/
theorem Encode.length_le_sized (content : Bytes) : content.length ≤ (Encode.sized content).length := by
  rw [Encode.sized, List.length_append]
  exact Nat.le_add_left ..

theorem Encode.length_le_sect (id : UInt8) (content : Bytes) :
    content.length ≤ (Encode.sect id content).length :=
  Nat.le_succ_of_le (Encode.length_le_sized content)

namespace Reads

/-- **Function bodies are cut apart.** -/
theorem bodies : (bs : List FuncBody) → (bs.flatMap Encode.body).length < 4294967296 →
    Reads (Payload.readBodies (bs.flatMap Encode.body).length bs.length) (bs.flatMap Encode.body)
      (fun contents => contents.map Slice.bytes = bs.map Encode.bodyContent)
  | [], _ => .pure rfl
  | b :: bs, h => by
    rw [List.flatMap_cons, List.length_append] at h ⊢
    have hle := Encode.length_le_sized (Encode.bodyContent b)
    have hsized : Reads Reader.sized (Encode.body b) (·.bytes = Encode.bodyContent b) :=
      sized (Nat.lt_of_le_of_lt hle (Nat.lt_of_le_of_lt (Nat.le_add_right ..) h))
    refine hsized.measured fun start content hcontent => ?_
    rw [Nat.add_sub_cancel_left]
    refine .guarded (Nat.not_lt.2 (Nat.le_add_right ..)) ?_
    rw [Nat.add_sub_cancel_left]
    refine (bodies bs (Nat.lt_of_le_of_lt (Nat.le_add_left ..) h)).map fun contents hcontents => ?_
    rw [List.map_cons, List.map_cons, hcontent, hcontents]

/-- **The code section is read back** as the contents of its bodies, if there are as many as functions. -/
theorem sectionCode {p : Progress} {bs : List FuncBody} (hlater : p.rank < 12)
    (hfunctions : p.functions = some bs.length) (hcount : bs.length < 4294967296)
    (hsize : (Encode.list Encode.body bs).length < 4294967296) :
    Reads (Payload.readSection p 10 (Encode.list Encode.body bs).length) (Encode.list Encode.body bs)
      (fun r => r.1.IsBodies bs ∧ r.2 = { p with rank := 12, bodies := some bs.length }) := by
  have hmatch : Progress.codeMismatch? { p with rank := 12, bodies := some bs.length } = none := by
    rw [Progress.codeMismatch?, hfunctions]
    exact if_pos rfl
  have hlength : (Encode.list Encode.body bs).length =
      (Leb128.unsigned bs.length).length + (bs.flatMap Encode.body).length := List.length_append
  rw [hlength] at hsize ⊢
  refine .guarded (by decide) (.guarded (Nat.not_le.2 hlater) ?_)
  refine (u32 hcount).measured fun start count hcount => ?_
  obtain rfl := hcount
  rw [Nat.add_sub_cancel_left]
  refine .guarded (Nat.not_lt.2 (Nat.le_add_right ..)) ?_
  simp only [hmatch, Nat.add_sub_cancel_left]
  refine (bodies bs (Nat.lt_of_le_of_lt (Nat.le_add_left ..) hsize)).map fun contents hcontents => ?_
  exact ⟨⟨contents, rfl, hcontents⟩, rfl⟩

end Reads

/-! ## Frames -/

/-- A module whose header is read, with some bytes to come. -/
def Frame.inModule (p : Progress) (offset : Nat) (bytes : Bytes) : Frame :=
  ⟨some .module, p, none, ⟨offset, bytes⟩⟩

/-- **The header comes first.** -/
theorem Frame.next_header (rest : Bytes) :
    (Frame.ofSlice none ⟨0, Encode.header ++ rest⟩).next =
      .ok (.version .module 0, [.inModule .start 8 rest]) := by
  obtain ⟨_, hread, rfl⟩ := Reads.header 0 rest
  show (Payload.header ⟨0, Encode.header ++ rest⟩ >>= _) = _
  rw [hread]
  rfl

/-- **A section comes next** if its content is read back. -/
theorem Frame.next_section {p p' : Progress} {id : UInt8} {content : Bytes} {P : Payload → Prop}
    (hid : id ≠ 0) (hid' : id.toNat < 128) (hsize : content.length < 4294967296)
    (h : Reads (Payload.readSection p id.toNat content.length) content (fun r => P r.1 ∧ r.2 = p'))
    (offset : Nat) (rest : Bytes) :
    ∃ payload offset', (Frame.inModule p offset (Encode.sect id content ++ rest)).next =
      .ok (payload, [.inModule p' offset' rest]) ∧ P payload := by
  have hbytes : Encode.sect id content ++ rest = (id :: Leb128.unsigned content.length) ++ (content ++ rest) := by
    rw [Encode.sect, Encode.sized, List.cons_append, List.append_assoc, List.cons_append]
  obtain ⟨⟨_, _, sizeAt⟩, hstart, rfl, rfl⟩ := Reads.sectionStart hid hid' hsize offset (content ++ rest)
  obtain ⟨⟨payload, _⟩, hread, hp, rfl⟩ :=
    h (offset + (id :: Leb128.unsigned content.length).length) rest
  refine ⟨payload, offset + (id :: Leb128.unsigned content.length).length + content.length, ?_, hp⟩
  rw [hbytes]
  show (Payload.readStart none ⟨offset, (id :: Leb128.unsigned content.length) ++ (content ++ rest)⟩ >>= _) = _
  rw [hstart]
  show (Payload.readSection p id.toNat content.length _ >>= _) = _
  rw [hread]
  rfl

/-- **A module ends** where its bytes do, if its numbers go together. -/
theorem Frame.next_finish {p : Progress} (h : p.mismatch? = none) (offset : Nat) :
    (Frame.inModule p offset []).next = .ok (.finish offset, []) := by
  simp only [Frame.next, Frame.inModule, h]
  rfl

/-- **A check goes on** behind a payload. -/
theorem Payload.foldM_upTo {α : Type} {check : α → Payload → Except Rejection α} {a b : α} {f : Frame}
    {payload : Payload} {frames : List Frame} (hnext : f.next = .ok (payload, frames))
    (hcheck : check a payload = .ok b) (limit : Nat) :
    foldM check a (upTo (limit + 1) [f]) = foldM check b (upTo limit frames) := by
  have hrest : upTo (limit + 1) [f] = (payload :: (upTo limit frames).1, (upTo limit frames).2) := by
    rw [upTo, hnext]
    show (payload :: (upTo limit (frames ++ [])).1, (upTo limit (frames ++ [])).2) = _
    rw [List.append_nil]
  rw [hrest, foldM, List.foldlM_cons, hcheck]
  rfl

end Wasm
end WasmLowering
