/-
# Trace records read back

The hook finds a record in the trace window and reads it by its tags.  What it reads
are the fields that the record was made of, in order: the addresses of the strings,
and the words that the locals held.

| step                   | what it is                                                   |
|------------------------|--------------------------------------------------------------|
| `TraceField.shown?`    | what a field shows, by the locals and the start of the data  |
| `Trace.put`            | the memory with entries from a position on, and the end tag  |
| `Trace.decode`         | the entries in some bytes, by the table of tags              |

The code of a record does what `Trace.put` does (`Trace.exec_stores`), entry by entry,
each in bytes of its own, so decoding gives the entries again (`Trace.decode_put`).
-/

import Mathlib.Algebra.Ring.Nat
import WasmLowering.Proofs.FrameBalance

namespace WasmLowering

open Wasm Lower

/-! ## Entries -/

/-- What a field of a record shows. -/
inductive TraceEntry where
  /-- The address of a string. -/
  | string (address : BitVec 32)
  /-- A word that a local held. -/
  | word (value : Value)
  | increment
  | decrement
  deriving DecidableEq, Repr

namespace TraceEntry

/-- The tag of an entry. -/
def tag : TraceEntry → Nat
  | string _ => 1
  | word (.i32 _) => 2
  | word (.i64 _) => 3
  | increment => 4
  | decrement => 5

/-- **A tag is a byte.** -/
theorem tag_lt (e : TraceEntry) : e.tag < 256 := by
  unfold tag
  split <;> decide

/-- The bytes behind the tag. -/
def width : TraceEntry → Nat
  | string _ => 4
  | word (.i32 _) => 4
  | word (.i64 _) => 8
  | increment | decrement => 0

/-- The number in the bytes behind the tag. -/
def payload : TraceEntry → Nat
  | string address => address.toNat
  | word value => value.toNat
  | increment | decrement => 0

end TraceEntry

/-- What a field shows, by the start of the unit's data and the locals; nothing if it names no word of its
kind. -/
def TraceField.shown? (start : BitVec 32) (locals : List Value) : TraceField → Option TraceEntry
  | string offset => some (.string (start + BitVec.ofNat 32 offset))
  | word index kind => (locals[index]?.filter (·.kind = kind)).map .word
  | increment => some .increment
  | decrement => some .decrement

/-- The bytes from an address on, so many. -/
def Memory.bytes (m : Memory) (a : Nat) : (n : Nat) → Bytes
  | 0 => []
  | n + 1 => m.byte a :: m.bytes (a + 1) n

namespace Trace

/-- The number in some bytes, lowest byte first. -/
def number (bytes : Bytes) : Nat := bytes.foldr (fun b n => b.toNat + 256 * n) 0

/-- The entries that some bytes begin with, up to the end tag. -/
def decode : Bytes → Option (List TraceEntry)
  | [] => none
  | tag :: rest =>
    match tag.toNat, rest with
    | 0, _ => some []
    | 1, a :: b :: c :: d :: rest => (decode rest).map (.string (BitVec.ofNat 32 (number [a, b, c, d])) :: ·)
    | 2, a :: b :: c :: d :: rest => (decode rest).map (.word (.ofNat .i32 (number [a, b, c, d])) :: ·)
    | 3, a :: b :: c :: d :: e :: f :: g :: h :: rest =>
      (decode rest).map (.word (.ofNat .i64 (number [a, b, c, d, e, f, g, h])) :: ·)
    | 4, rest => (decode rest).map (.increment :: ·)
    | 5, rest => (decode rest).map (.decrement :: ·)
    | _, _ => none

end Trace

/-! ## Entries in memory -/

namespace TraceEntry

/-- The memory with an entry at a position: its tag, and behind it its payload. -/
def put (p : Nat) (e : TraceEntry) (m : Memory) : Memory :=
  (m.write 1 p e.tag).write e.width (p + 1) e.payload

/-- **An entry changes its own bytes only.** -/
theorem agreeOff_put (p : Nat) (e : TraceEntry) (m : Memory) :
    m.AgreeOff p (p + 1 + e.width) (e.put p m) := by
  have htag : m.AgreeOff p (p + 1) (m.write 1 p e.tag) := .write ..
  have hpayload : (m.write 1 p e.tag).AgreeOff (p + 1) (p + 1 + e.width) (e.put p m) := .write ..
  exact (htag.mono (Nat.le_refl _) (Nat.le_add_right ..)).trans (hpayload.mono (Nat.le_succ _) (Nat.le_refl _))

/-- **The tag stands in front.** -/
theorem byte_put (p : Nat) (e : TraceEntry) (m : Memory) : ((e.put p m).byte p).toNat = e.tag := by
  have hbehind : (e.put p m).byte p = (m.write 1 p e.tag).byte p :=
    if_neg fun h => Nat.not_succ_le_self p h.1
  have hbyte : (m.write 1 p e.tag).byte p = e.tag.toUInt8 := by
    simp [Memory.write]
  rw [hbehind, hbyte, Nat.toUInt8_eq, UInt8.toNat_ofNat', Nat.mod_eq_of_lt e.tag_lt]

/-- **The payload stands behind the tag.** -/
theorem read_put (p : Nat) (e : TraceEntry) (m : Memory) : (e.put p m).read e.width (p + 1) = e.payload := by
  have hlt : e.payload < Nat.pow 256 e.width := by
    cases e with
    | string address => exact address.isLt
    | word value =>
      cases value with
      | i32 w => exact w.isLt
      | i64 w => exact w.isLt
    | increment | decrement => exact Nat.one_pos
  rw [put, Memory.read_write, Nat.mod_eq_of_lt hlt]

end TraceEntry

namespace Trace

/-- The bytes of entries and their end tag. -/
def space : List TraceEntry → Nat
  | [] => 1
  | e :: es => 1 + e.width + space es

/-- The memory with entries one after the other from a position on, and the end tag. -/
def put (p : Nat) : List TraceEntry → Memory → Memory
  | [], m => m.write 1 p TraceField.endTag
  | e :: es, m => put (p + 1 + e.width) es (e.put p m)

/-- **Entries change their own bytes only.** -/
theorem agreeOff_put (p : Nat) (es : List TraceEntry) (m : Memory) :
    m.AgreeOff p (p + space es) (put p es m) := by
  induction es generalizing p m with
  | nil => exact .write ..
  | cons e es ih =>
    have hfirst := e.agreeOff_put p m
    have hrest := ih (p + 1 + e.width) (e.put p m)
    rw [space]
    exact (hfirst.mono (Nat.le_refl _) (by omega)).trans (hrest.mono (by omega) (by omega))

/-- **An entry is read by its tag.** -/
theorem decode_entry {m : Memory} {p : Nat} {e : TraceEntry} (htag : (m.byte p).toNat = e.tag)
    (hpayload : m.read e.width (p + 1) = e.payload) (k : Nat) :
    decode (m.bytes p (k + (e.width + 1))) = (decode (m.bytes (p + 1 + e.width) k)).map (e :: ·) := by
  cases e with
  | string address =>
    have hword : BitVec.ofNat 32 (m.read 4 (p + 1)) = address := by
      rw [show m.read 4 (p + 1) = address.toNat from hpayload, BitVec.ofNat_toNat, BitVec.setWidth_eq]
    simp only [TraceEntry.width, Memory.bytes, decode, htag, TraceEntry.tag]
    rw [← hword]
    rfl
  | word value =>
    cases value with
    | i32 w =>
      have hword : Value.ofNat .i32 (m.read 4 (p + 1)) = .i32 w := by
        rw [show m.read 4 (p + 1) = w.toNat from hpayload, Value.ofNat, BitVec.ofNat_toNat, BitVec.setWidth_eq]
      simp only [TraceEntry.width, Memory.bytes, decode, htag, TraceEntry.tag]
      rw [← hword]
      rfl
    | i64 w =>
      have hword : Value.ofNat .i64 (m.read 8 (p + 1)) = .i64 w := by
        rw [show m.read 8 (p + 1) = w.toNat from hpayload, Value.ofNat, BitVec.ofNat_toNat, BitVec.setWidth_eq]
      simp only [TraceEntry.width, Memory.bytes, decode, htag, TraceEntry.tag]
      rw [← hword]
      rfl
  | increment | decrement =>
    simp only [TraceEntry.width, Memory.bytes, decode, htag, TraceEntry.tag]
    rfl

/-- **Entries in memory are read back,** whatever stands behind their end tag. -/
theorem decode_put (p : Nat) (es : List TraceEntry) (m : Memory) (k : Nat) :
    decode ((put p es m).bytes p (k + space es)) = some es := by
  induction es generalizing p m with
  | nil =>
    have hend : (m.write 1 p TraceField.endTag).byte p = 0 := by
      simp [Memory.write, TraceField.endTag]
    simp only [put, space, Memory.bytes, hend]
    rfl
  | cons e es ih =>
    -- the entries behind the first one do not touch it
    have hrest := agreeOff_put (p + 1 + e.width) es (e.put p m)
    have htag : ((put p (e :: es) m).byte p).toNat = e.tag := by
      rw [put, hrest.byte p (.inl (by omega)), e.byte_put]
    have hpayload : (put p (e :: es) m).read e.width (p + 1) = e.payload := by
      rw [put, hrest.read (.inl (Nat.le_refl _)), e.read_put]
    have hspace : k + space (e :: es) = k + space es + (e.width + 1) := by
      rw [space]
      omega
    rw [hspace, decode_entry htag hpayload, put, ih]
    rfl

end Trace

/-! ## Fields and their entries -/

namespace TraceField

variable {start : BitVec 32} {locals : List Value} {f : TraceField} {e : TraceEntry}

/-- **A field has the tag and the bytes of what it shows.** -/
theorem tag_size_of_shown? (h : f.shown? start locals = some e) : f.tag = e.tag ∧ f.size = 1 + e.width := by
  cases f with
  | string | increment | decrement =>
    cases h
    exact ⟨rfl, rfl⟩
  | word index kind =>
    obtain ⟨v, hv, rfl⟩ := Option.map_eq_some_iff.1 h
    obtain ⟨-, hk⟩ := Option.filter_eq_some_iff.1 hv
    obtain rfl := of_decide_eq_true hk
    cases v <;> exact ⟨rfl, rfl⟩

/-- **A field that can be read shows something.** -/
theorem exists_shown? (start : BitVec 32) (h : f.Readable (locals.map Value.kind)) :
    ∃ e, f.shown? start locals = some e := by
  cases f with
  | string | increment | decrement => exact ⟨_, rfl⟩
  | word index kind =>
    rw [Readable, List.getElem?_map] at h
    obtain ⟨v, hv, hk⟩ := Option.map_eq_some_iff.1 h
    exact ⟨.word v, Option.map_eq_some_iff.2 ⟨v, Option.filter_eq_some_iff.2 ⟨hv, decide_eq_true hk⟩, rfl⟩⟩

end TraceField

namespace Trace

variable {start : BitVec 32} {locals : List Value} {fields : List TraceField}

/-- **Fields take as many bytes as what they show.** -/
theorem size_of_entries {entries : List TraceEntry}
    (h : fields.map (·.shown? start locals) = entries.map some) : size fields = space entries := by
  induction fields generalizing entries with
  | nil =>
    obtain rfl := List.map_eq_nil_iff.1 h.symm
    rfl
  | cons f fs ih =>
    obtain ⟨e, es, rfl, he, hes⟩ := List.map_eq_cons_iff.1 h.symm
    rw [size, space, (TraceField.tag_size_of_shown? he.symm).2, ih hes.symm]

/-- **Fields that can be read show something.** -/
theorem exists_entries (start : BitVec 32) (h : ∀ f ∈ fields, f.Readable (locals.map Value.kind)) :
    ∃ entries : List TraceEntry, fields.map (·.shown? start locals) = entries.map some := by
  induction fields with
  | nil => exact ⟨[], rfl⟩
  | cons f fs ih =>
    obtain ⟨e, he⟩ := TraceField.exists_shown? start (h f List.mem_cons_self)
    obtain ⟨es, hes⟩ := ih fun g hg => h g (List.mem_cons_of_mem f hg)
    exact ⟨e :: es, by rw [List.map_cons, List.map_cons, he, hes]⟩

end Trace

/-! ## The code of records -/

section Code

variable {spaces : IndexSpaces} (inst : Instance spaces) (fuel : Nat) {m : Machine}

/-- The machine with an address word `0` on top, for a store at a fixed address. -/
def Wasm.Machine.addressed (m : Machine) : Machine := { m with stack := .i32 0#32 :: m.stack }

/-- **A store at a fixed address** writes the word that some code leaves above the address word. -/
theorem TraceField.exec_storeAt {op : StoreOp} {align position : Nat} {code : Code} {v : Value}
    (hcode : Code.exec inst fuel code m.addressed = .next { m with stack := v :: m.addressed.stack })
    (hk : v.kind = op.kind) (hroom : position + op.size ≤ m.memory.size) :
    Code.exec inst fuel (.constI32 0 :: code ++ [.store op ⟨align, position⟩]) m =
      .next { m with memory := m.memory.write op.size position v.toNat } := by
  have hstep : (Plain.store op ⟨align, position⟩).step inst.globals
      { m with stack := v :: m.addressed.stack } =
        .ok { m with memory := m.memory.write op.size position v.toNat } := by
    have hstore : m.memory.store op.size ((0#32).toNat + position) v.toNat =
        some (m.memory.write op.size position v.toNat) := by
      rw [BitVec.toNat_zero, Nat.zero_add]
      exact if_pos hroom
    rw [Plain.step_store rfl hk, hstore]
    rfl
  calc Code.exec inst fuel (.constI32 0 :: code ++ [.store op ⟨align, position⟩]) m
      = Code.exec inst fuel (code ++ [.store op ⟨align, position⟩]) m.addressed :=
        Code.exec_plain inst rfl _
    _ = Code.exec inst fuel [.store op ⟨align, position⟩] { m with stack := v :: m.addressed.stack } := by
        rw [Code.exec_append, hcode]
        rfl
    _ = .next { m with memory := m.memory.write op.size position v.toNat } := Code.exec_plain inst hstep []

namespace TraceField

/-- **A tag** is written in one byte. -/
theorem exec_storeTag {position tag : Nat} (htag : tag < 256) (hroom : position + 1 ≤ m.memory.size) :
    Code.exec inst fuel (storeTag position tag) m =
      .next { m with memory := m.memory.write 1 position tag } := by
  have hcode : Code.exec inst fuel [.constI32 tag] m.addressed =
      .next { m with stack := .i32 (BitVec.ofNat 32 tag) :: m.addressed.stack } := Code.exec_plain inst rfl []
  have hbyte : position + StoreOp.byte.size ≤ m.memory.size := hroom
  have hnumber : (Value.i32 (BitVec.ofNat 32 tag)).toNat = tag := Nat.mod_eq_of_lt (by omega)
  have hstore : Code.exec inst fuel (storeTag position tag) m =
      .next { m with memory := m.memory.write 1 position (Value.i32 (BitVec.ofNat 32 tag)).toNat } :=
    exec_storeAt inst fuel hcode rfl hbyte
  rwa [hnumber] at hstore

/-- **A word** is written in the bytes of its kind. -/
theorem exec_storeWord {position : Nat} {code : Code} {v : Value}
    (hcode : Code.exec inst fuel code m.addressed = .next { m with stack := v :: m.addressed.stack })
    (hroom : position + (storeOp v.kind).size ≤ m.memory.size) :
    Code.exec inst fuel (storeWord position v.kind code) m =
      .next { m with memory := m.memory.write (storeOp v.kind).size position v.toNat } := by
  have hk : v.kind = (storeOp v.kind).kind := by cases v <;> rfl
  exact exec_storeAt inst fuel hcode hk hroom

/-- **The payload of a field** is what it shows, in the bytes behind the tag. -/
theorem exec_storePayload {start : BitVec 32}
    (hstart : inst.globals[Layout.dataStartGlobal]? = some (.i32 start)) {f : TraceField} {e : TraceEntry}
    (he : f.shown? start m.locals = some e) {position : Nat} (hroom : position + e.width ≤ m.memory.size) :
    Code.exec inst fuel (f.storePayload position) m =
      .next { m with memory := m.memory.write e.width position e.payload } := by
  cases f with
  | string offset =>
    cases he
    have hget : Code.exec inst fuel (Segment.address offset) m.addressed =
        .next { m with stack := .i32 (start + BitVec.ofNat 32 offset) :: m.addressed.stack } := by
      rw [Segment.address]
      exact (Code.exec_plain inst (Plain.step_globalGet hstart) _).trans rfl
    exact exec_storeWord inst fuel hget hroom
  | word index kind =>
    obtain ⟨v, hfilter, rfl⟩ := Option.map_eq_some_iff.1 he
    obtain ⟨hv, hk⟩ := Option.filter_eq_some_iff.1 hfilter
    obtain rfl := of_decide_eq_true hk
    have hget : Code.exec inst fuel [.localGet index] m.addressed =
        .next { m with stack := v :: m.addressed.stack } := by
      have hlocal : m.addressed.locals[index]? = some v := hv
      exact Code.exec_plain inst (Plain.step_localGet hlocal) []
    have hwidth : (TraceEntry.word v).width = (storeOp v.kind).size := by cases v <;> rfl
    rw [hwidth] at hroom ⊢
    exact exec_storeWord inst fuel hget hroom
  | increment | decrement =>
    cases he
    rw [TraceEntry.width, Memory.write_zero]
    rfl

/-- **A field** is written as what it shows. -/
theorem exec_store {start : BitVec 32} (hstart : inst.globals[Layout.dataStartGlobal]? = some (.i32 start))
    {f : TraceField} {e : TraceEntry} (he : f.shown? start m.locals = some e) {position : Nat}
    (hroom : position + 1 + e.width ≤ m.memory.size) :
    Code.exec inst fuel (f.store position) m = .next { m with memory := e.put position m.memory } := by
  have htagRoom : position + 1 ≤ m.memory.size := by omega
  rw [store, Code.exec_append, (tag_size_of_shown? he).1, exec_storeTag inst fuel e.tag_lt htagRoom]
  exact exec_storePayload (m := { m with memory := m.memory.write 1 position e.tag }) inst fuel hstart he hroom

end TraceField

namespace Trace

/-- **The fields of a record** are written one after the other as what they show, and the end tag. -/
theorem exec_stores {start : BitVec 32} (hstart : inst.globals[Layout.dataStartGlobal]? = some (.i32 start))
    {fields : List TraceField} {entries : List TraceEntry}
    (h : fields.map (·.shown? start m.locals) = entries.map some) {position : Nat}
    (hroom : position + space entries ≤ m.memory.size) :
    Code.exec inst fuel (stores position fields) m = .next { m with memory := put position entries m.memory } := by
  induction fields generalizing m position entries with
  | nil =>
    obtain rfl := List.map_eq_nil_iff.1 h.symm
    exact TraceField.exec_storeTag inst fuel (by decide) hroom
  | cons f fs ih =>
    obtain ⟨e, es, rfl, he, hes⟩ := List.map_eq_cons_iff.1 h.symm
    have hspace : space (e :: es) = 1 + e.width + space es := rfl
    have hroomFirst : position + 1 + e.width ≤ m.memory.size := by omega
    have hsize := (TraceField.tag_size_of_shown? he.symm).2
    have hroomRest : position + 1 + e.width + space es ≤ (e.put position m.memory).size := by
      rw [(e.agreeOff_put position m.memory).size]
      omega
    rw [stores, Code.exec_append, TraceField.exec_store inst fuel hstart he.symm hroomFirst, hsize,
      ← Nat.add_assoc]
    exact ih (m := { m with memory := e.put position m.memory }) hes.symm hroomRest

/-- **The fields of a record** are written by plain code. -/
theorem isPlain_stores (fields : List TraceField) : (stores Layout.traceStart fields).isPlain = true :=
  Code.isPlain_of_isSilent (isSilent_stores 0 (Nat.le_refl Layout.traceStart))

/-- **A record fits the window,** and the hook is called behind its fields. -/
theorem record_eq_ok {fields : List TraceField} {code : Code} (h : record fields = .ok code) :
    size fields ≤ Layout.traceBudget ∧
      code = stores Layout.traceStart fields ++ [.call Layout.traceHook] := by
  unfold record at h
  split at h
  · rename_i hsize
    cases h
    exact ⟨hsize, rfl⟩
  · cases h

/-- **The size of a record** is that of its fields and of the end tag. -/
theorem size_eq (fields : List TraceField) : size fields = (fields.map TraceField.size).sum + 1 := by
  induction fields with
  | nil => rfl
  | cons f fs ih => rw [size, ih, List.map_cons, List.sum_cons, Nat.add_assoc]

end Trace

end Code

namespace Trace

/-- **Records read back.**  A record is refused, as too long for its window, just if its fields and the end tag
take more than 124 bytes.  Otherwise its code is plain up to its one call, of the hook, with which it ends.
Whatever the module instance and the machine, if the words that the fields name are in locals of their kinds and
the memory has room for the window, the code comes to the call, and has changed no more than bytes `4` to `127`
of the memory: they decode to what the fields show, one entry for each field, in order. -/
theorem decode_record (fields : List TraceField) :
    ((∃ fault, record fields = .error fault ∧ fault.diagnostic.kind = .scratchOverflow) ↔
      124 < (fields.map TraceField.size).sum + 1) ∧
    ((fields.map TraceField.size).sum + 1 ≤ 124 →
      ∃ writes : Code, writes.isPlain = true ∧ record fields = .ok (writes ++ [.call Layout.traceHook]) ∧
        ∀ (spaces : IndexSpaces) (inst : Instance spaces) (start : BitVec 32) (fuel : Nat) (m : Machine),
          inst.globals[Layout.dataStartGlobal]? = some (.i32 start) →
          (∀ f ∈ fields, f.Readable (m.locals.map Value.kind)) → 128 ≤ m.memory.size →
          ∃ memory entries, Code.exec inst fuel writes m = .next { m with memory } ∧
            fields.map (·.shown? start m.locals) = entries.map some ∧
            decode (memory.bytes 4 124) = some entries ∧ m.memory.AgreeOff 4 128 memory) := by
  rw [← size_eq]
  refine ⟨⟨?_, fun hsize => ?_⟩, fun hsize => ?_⟩
  · rintro ⟨fault, hfault, -⟩
    refine Nat.lt_of_not_le fun hle => ?_
    have hfits : size fields ≤ Layout.traceBudget := hle
    rw [record, if_pos hfits] at hfault
    cases hfault
  · exact ⟨_, if_neg (Nat.not_le_of_lt hsize), rfl⟩
  · refine ⟨stores Layout.traceStart fields, isPlain_stores fields, if_pos hsize, ?_⟩
    intro spaces inst start fuel m hstart hfields hroom
    obtain ⟨entries, hentries⟩ := exists_entries start hfields
    rw [size_of_entries hentries] at hsize
    have hend : Layout.traceStart + space entries ≤ 128 := by
      unfold Layout.traceStart
      omega
    have hdecode := decode_put Layout.traceStart entries m.memory (124 - space entries)
    rw [Nat.sub_add_cancel hsize] at hdecode
    exact ⟨_, entries, exec_stores inst fuel hstart hentries (Nat.le_trans hend hroom), hentries, hdecode,
      (agreeOff_put Layout.traceStart entries m.memory).mono (Nat.le_refl _) hend⟩

end Trace

namespace Tally

/-- A string, words of both kinds and both changes of level. -/
def fields : List TraceField := [.string 3, .word 3 .i64, .word 5 .i32, .increment, .decrement]

/-- A record of every sort of field reads back: the string is at `128 + 3`, the locals hold `9` and `6`.  A
record of 24 strings and four changes of level takes one byte too many. -/
theorem decode_fields :
    (∃ writes memory, Trace.record fields = .ok (writes ++ [.call Layout.traceHook]) ∧
      Code.exec inst 0 writes machine = .next { machine with memory } ∧
      Trace.decode (memory.bytes 4 124) =
        some [.string 131, .word (.i64 9), .word (.i32 6), .increment, .decrement] ∧
      memory.byte 0 = 128 ∧ memory.byte 128 = 0) ∧
    ∃ fault, Trace.record (List.replicate 24 (.string 0) ++ List.replicate 4 .increment) = .error fault ∧
      fault.diagnostic.kind = .scratchOverflow := by
  refine ⟨?_, (Trace.decode_record _).1.2 (by decide)⟩
  have hreadable : ∀ f ∈ fields, f.Readable (machine.locals.map Value.kind) := by
    simp [fields, TraceField.Readable, machine, Value.kind]
  obtain ⟨writes, -, hrecord, hruns⟩ := (Trace.decode_record fields).2 (by decide)
  obtain ⟨memory, entries, hexec, hentries, hdecode, hagree⟩ :=
    hruns spaces inst 128 0 machine rfl hreadable (by decide)
  have hshown : entries = [.string 131, .word (.i64 9), .word (.i32 6), .increment, .decrement] := by
    refine (List.map_inj_right fun _ _ h => Option.some.inj h).1 (hentries.symm.trans ?_)
    decide
  refine ⟨writes, memory, hrecord, hexec, hshown ▸ hdecode, ?_, ?_⟩
  · exact (hagree.byte 0 (.inl (by decide))).trans (by decide)
  · exact (hagree.byte 128 (.inr (by decide))).trans (by decide)

end Tally

end WasmLowering
