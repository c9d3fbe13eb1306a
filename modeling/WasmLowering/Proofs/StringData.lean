/-
# Literals in the memory of a linked program

A module's string literals are the string literals of its bodies and, with tracing
on, the names of its functions and the mark of a return.  For each of them code
emits the address of an offset within the module's segment, and the loader places
the segments one after the other:

| bytes                                    | what is there                       |
|------------------------------------------|-------------------------------------|
| `0 .. 128`                               | the mark and the trace window       |
| `dataStart k .. dataStart (k + 1)`       | the segment of module `k`           |
| `dataStart k + offset ..`                | a literal and a zero byte           |

An offset never changes once it is emitted, so that it is the literal's offset in
the finished segment (`Function.Emits.offset?_eq`).  There the literal's bytes
stand (`Segment.image_at`), and no other literal shares them (`Segment.apart`).

Sizes are words of 32 bits.  They are the sizes of the literals as long as all
literals of the program end below `2³²` (`Link.dataStart_eq`).
-/

import WasmLowering.Proofs.Emission
import WasmLowering.Proofs.FrameBalance
import WasmLowering.Proofs.Interning
import WasmLowering.Proofs.Summaries

namespace WasmLowering

open Wasm Lower

/-! ## Segments -/

namespace Segment

variable {seg : Segment} {s s' : String} {o o' : Nat}

/-- **The size of a segment is the space of its strings,** unless it wraps. -/
theorem size_eq (hfits : spaceOf seg.strings < 4294967296) : seg.size = spaceOf seg.strings :=
  seg.consistent.toNat_size hfits

/-- **A string that is placed** stands behind strings that take as many bytes as its offset says. -/
theorem split_of_offset? (hfits : spaceOf seg.strings < 4294967296) (h : seg.offset? s = some o) :
    ∃ before after, seg.strings = before ++ s :: after ∧ o = spaceOf before := by
  have hplaced := seg.consistent.toNat_offset? hfits s
  exact split_of_offsetIn? (hplaced.symm.trans h)

/-- **A string stands at its offset,** with a zero byte behind it. -/
theorem image_at (hfits : spaceOf seg.strings < 4294967296) (h : seg.offset? s = some o) :
    image s <+: seg.bytes.drop o ∧ o + space s ≤ seg.size := by
  obtain ⟨before, after, hstrings, rfl⟩ := split_of_offset? hfits h
  have hbytes : seg.bytes = seg.strings.flatMap image := seg.consistent.bytes_eq hfits
  constructor
  · refine ⟨after.flatMap image, ?_⟩
    rw [hbytes, hstrings, List.flatMap_append, List.flatMap_cons, ← length_flatMap_image, List.drop_left]
  · rw [size_eq hfits, hstrings, spaceOf_append, spaceOf]
    omega

/-- **Strings do not overlap.** -/
theorem apart (hfits : spaceOf seg.strings < 4294967296) (h : seg.offset? s = some o)
    (h' : seg.offset? s' = some o') (hne : s ≠ s') : o + space s ≤ o' ∨ o' + space s' ≤ o := by
  obtain ⟨before, after, hstrings, rfl⟩ := split_of_offset? hfits h
  obtain ⟨before', after', hstrings', rfl⟩ := split_of_offset? hfits h'
  -- Whichever stands behind has the other one in front of it.
  rcases List.append_eq_append_iff.1 (hstrings.symm.trans hstrings') with ⟨mid, hmid, hrest⟩ | ⟨mid, hmid, hrest⟩
  · cases mid with
    | nil => exact absurd (List.cons.inj hrest).1 hne
    | cons t mid =>
      left
      rw [hmid, ← (List.cons.inj hrest).1, spaceOf_append, spaceOf]
      omega
  · cases mid with
    | nil => exact absurd (List.cons.inj hrest).1.symm hne
    | cons t mid =>
      right
      rw [hmid, ← (List.cons.inj hrest).1, spaceOf_append, spaceOf]
      omega

/-- **The address of an offset** is that far behind the start of the segment, unless it wraps. -/
theorem exec_address {spaces : IndexSpaces} (inst : Instance spaces) (fuel : Nat) (m : Machine) {start offset : Nat}
    (hstart : inst.globals[Layout.dataStartGlobal]? = some (.i32 (BitVec.ofNat 32 start)))
    (hfits : start + offset < 4294967296) :
    ∃ w : BitVec 32, Code.exec inst fuel (address offset) m = .next { m with stack := .i32 w :: m.stack } ∧
      w.toNat = start + offset := by
  refine ⟨BitVec.ofNat 32 start + BitVec.ofNat 32 offset, ?_, ?_⟩
  · exact (Code.exec_plain inst (Plain.step_globalGet hstart) _).trans rfl
  · rw [← BitVec.ofNat_add, BitVec.toNat_ofNat]
    exact Nat.mod_eq_of_lt hfits

end Segment

/-! ## Functions -/

/-- **The string that a record starts with** stands within its code. -/
theorem Trace.within_record {offset : Nat} {fields : List TraceField} {code : Code}
    (h : record (.string offset :: fields) = .ok code) : (Segment.address offset).Within code := by
  unfold record at h
  split at h
  · cases h
    refine .left (.left (.right (.left ?_)))
    exact .right (a := [.constI32 0]) .self
  · cases h

namespace Function

section Emits

variable (scope : Scope) (traced : Bool) (f : Function) (seg : Segment)

/-- The segment that a function's body is lowered over. -/
def bodySegment : Segment := if traced then (seg.intern f.name).2 else seg

/-- The address at an offset is emitted for a literal while a function is lowered. -/
inductive Emits : (text : String) → (offset : Nat) → Prop
  | literal {code : Code} {st : LowerState} {text : String} {offset : Nat} :
    f.body.lower scope f.frame (.start (f.bodySegment traced seg)) = .ok code st →
      WasmLowering.Emits scope f.frame (.start (f.bodySegment traced seg)) f.body code st text offset →
      Emits text offset
  | name : traced = true → Emits f.name (seg.intern f.name).1
  | marker {code : Code} {st : LowerState} : traced = true →
      f.body.lower scope f.frame (.start (f.bodySegment traced seg)) = .ok code st →
      Emits Trace.returnMarker (st.segment.intern Trace.returnMarker).1

end Emits

variable {scope : Scope} {traced : Bool} {f : Function} {seg seg' : Segment} {body : FuncBody}
  {text : String} {offset : Nat}

/-- **The parts of a lowered function:** the code of the body over the body's segment, and with tracing on a
record in front of it that holds the name and one behind it that holds the mark of a return. -/
theorem lower_parts (h : f.lower scope traced seg = .ok body seg') :
    ∃ code st, f.body.lower scope f.frame (.start (f.bodySegment traced seg)) = .ok code st ∧
      code.Within body.code ∧ st.segment.strings <+: seg'.strings ∧
      (traced = true → seg' = (st.segment.intern Trace.returnMarker).2 ∧
        (Segment.address (seg.intern f.name).1).Within body.code ∧
        (Segment.address (st.segment.intern Trace.returnMarker).1).Within body.code) := by
  obtain ⟨-, entry, mid, code, st, exit, hentry, hbody, -, hexit, rfl⟩ := lower_eq_ok h
  have hmid : mid = f.bodySegment traced seg := by
    cases traced with
    | false => exact (pure_eq_ok.1 hentry).2.symm
    | true => exact (Trace.entry_eq_ok hentry).1
  subst hmid
  refine ⟨code, st, hbody, .left (.left (.right .self)), strings_exit hexit, ?_⟩
  rintro rfl
  obtain ⟨-, hrecord⟩ := Trace.entry_eq_ok hentry
  obtain ⟨hseg, record, hrecord', rfl⟩ := Trace.exit_eq_ok hexit
  refine ⟨hseg, .left (.left (.left (Trace.within_record hrecord))), ?_⟩
  exact .left (.right (.right (Trace.within_record hrecord')))

/-- **Lowering a function only adds strings.** -/
theorem strings_lower (h : f.lower scope traced seg = .ok body seg') : seg.strings <+: seg'.strings := by
  obtain ⟨code, st, hbody, -, hst, -⟩ := lower_parts h
  have hstart : seg.strings <+: (f.bodySegment traced seg).strings := by
    unfold bodySegment
    split
    · exact Segment.strings_intern ..
    · exact List.prefix_refl _
  exact hstart.trans ((Lowers.of_lower hbody).grows.strings.trans hst)

namespace Emits

/-- **A literal keeps the offset** that a function's code has for it. -/
theorem offset?_eq (he : f.Emits scope traced seg text offset) (h : f.lower scope traced seg = .ok body seg')
    {segment : Segment} (hsegment : seg'.strings <+: segment.strings) : segment.offset? text = some offset := by
  obtain ⟨code, st, hbody, -, hst, htraced⟩ := lower_parts h
  cases he with
  | literal hlower hemits =>
    cases hbody.symm.trans hlower
    exact hemits.offset?_eq (hst.trans hsegment)
  | name ht =>
    have hname : (seg.intern f.name).2.strings <+: st.segment.strings := by
      have hgrows := (Lowers.of_lower hbody).grows.strings
      rwa [ht] at hgrows
    exact Segment.offset?_of_intern (hname.trans (hst.trans hsegment))
  | marker ht hlower =>
    cases hbody.symm.trans hlower
    obtain ⟨rfl, -⟩ := htraced ht
    exact Segment.offset?_of_intern hsegment

/-- **The address stands within the function's code.** -/
theorem within (he : f.Emits scope traced seg text offset) (h : f.lower scope traced seg = .ok body seg') :
    (Segment.address offset).Within body.code := by
  obtain ⟨code, st, hbody, hcode, -, htraced⟩ := lower_parts h
  cases he with
  | literal hlower hemits =>
    cases hbody.symm.trans hlower
    exact hemits.within.trans hcode
  | name ht => exact (htraced ht).2.1
  | marker ht hlower =>
    cases hbody.symm.trans hlower
    exact (htraced ht).2.2

end Emits

/-- The literals of a function: those of its body and, with tracing on, its name and the mark of a return. -/
def HasLiteral (traced : Bool) (f : Function) (text : String) : Prop :=
  f.body.Mentions text ∨ traced = true ∧ (text = f.name ∨ text = Trace.returnMarker)

/-- **For every literal of a function an address is emitted.** -/
theorem exists_emits (h : f.lower scope traced seg = .ok body seg') (htext : f.HasLiteral traced text) :
    ∃ offset, f.Emits scope traced seg text offset := by
  obtain ⟨code, st, hbody, -⟩ := lower_parts h
  rcases htext with hmentions | ⟨ht, rfl | rfl⟩
  · obtain ⟨offset, hemits⟩ := (Lowers.of_lower hbody).emits hmentions
    exact ⟨offset, .literal hbody hemits⟩
  · exact ⟨_, .name ht⟩
  · exact ⟨_, .marker ht hbody⟩

end Function

/-! ## Units -/

/-- **Lowering functions only adds strings.** -/
theorem Assembly.strings_bodies {scope : Scope} {traced : Bool} {fs : List Function} {bs : List FuncBody}
    {seg seg' : Segment} (h : bodies scope traced fs seg = .ok bs seg') : seg.strings <+: seg'.strings := by
  induction fs generalizing seg bs with
  | nil =>
    cases h
    exact List.prefix_refl _
  | cons f fs ih =>
    obtain ⟨b, mid, rest, hlower, hrest, -⟩ := bodies_cons_eq_ok.1 h
    exact (Function.strings_lower hlower).trans (ih hrest)

/-- The address at an offset is emitted for a literal in a function of a unit. -/
def SourceUnit.Emits (scope : Scope) (traced : Bool) (u : SourceUnit) (q : Nat) (text : String) (offset : Nat) :
    Prop :=
  ∃ f bodies segment, u.functions[q]? = some f ∧
    Assembly.bodies scope traced (u.functions.take q) .empty = .ok bodies segment ∧
    f.Emits scope traced segment text offset

section Unit

variable {scope : Scope} {traced : Bool} {u : SourceUnit} {bodies : List FuncBody} {segment : Segment}
  (h : Assembly.lowerFunctions scope traced u = .ok (bodies, segment)) {q : Nat} {text : String}
include h

/-- **A literal is where its address says,** in the segment of the unit. -/
theorem SourceUnit.Emits.placed {offset : Nat} (he : u.Emits scope traced q text offset) :
    segment.offset? text = some offset ∧
      ∃ body, bodies[q]? = some body ∧ (Segment.address offset).Within body.code := by
  obtain ⟨f, _, start, hf, hstart, he⟩ := he
  obtain ⟨body, _, stop, hbody, hbefore, hlower, hbehind⟩ :=
    Assembly.body_at (Assembly.bodies_of_lowerFunctions h) hf
  cases hstart.symm.trans hbefore
  exact ⟨he.offset?_eq hlower (Assembly.strings_bodies hbehind), body, hbody, he.within hlower⟩

/-- **For every literal of a unit's function an address is emitted.** -/
theorem SourceUnit.exists_emits {f : Function} (hf : u.functions[q]? = some f) (htext : f.HasLiteral traced text) :
    ∃ offset, u.Emits scope traced q text offset := by
  obtain ⟨body, start, stop, -, hbefore, hlower, -⟩ :=
    Assembly.body_at (Assembly.bodies_of_lowerFunctions h) hf
  obtain ⟨offset, he⟩ := f.exists_emits hlower htext
  exact ⟨offset, f, _, start, hf, hbefore, he⟩

end Unit

/-- **The size that the summary tells** is the number of bytes of the segment. -/
theorem dataSize_of_assemble {config : Config} {state next : LinkState} {u : SourceUnit} {a : Assembled}
    (h : assemble config state u = .ok (a, next)) : a.summary.dataSize = a.code.data.length := by
  obtain ⟨_, -, hsummary⟩ := summary_of_assemble h
  rw [hsummary]
  rfl

/-! ## Programs -/

/-- Where the loader places the segment of a module: behind those of the modules before it. -/
def Program.dataStart (p : Program) (k : Nat) : Nat :=
  (p.modules.take k).foldl (fun start a => start + a.summary.dataSize) Layout.dataStart

namespace Program

variable {p : Program}

theorem dataStart_succ {k : Nat} {a : Assembled} (ha : p.modules[k]? = some a) :
    p.dataStart (k + 1) = p.dataStart k + a.summary.dataSize := by
  rw [dataStart, List.take_add_one, ha, List.foldl_append]
  rfl

/-- **Segments are placed in order.** -/
theorem dataStart_mono {j k : Nat} (h : j ≤ k) : p.dataStart j ≤ p.dataStart k := by
  induction h with
  | refl => exact Nat.le_refl _
  | @step k _ ih =>
    cases ha : p.modules[k]? with
    | none =>
      have hsame : p.dataStart (k + 1) = p.dataStart k := by
        rw [dataStart, List.take_add_one, ha, Option.toList_none, List.append_nil]
        rfl
      rwa [hsame]
    | some a =>
      rw [dataStart_succ ha]
      exact Nat.le_add_right_of_le ih

end Program

/-- The address at an offset is emitted for a literal in a function of a unit that is linked. -/
def Link.Emits (config : Config) (units : List SourceUnit) (k q : Nat) (text : String) (offset : Nat) : Prop :=
  ∃ u scope, units[k]? = some u ∧ Scope.ofUnit (.after config.minPages (units.take k)) u = .ok scope ∧
    u.Emits scope config.traced q text offset

/-- The segment of a unit that is linked. -/
def Link.segment? (config : Config) (units : List SourceUnit) (k : Nat) : Option Segment := do
  let u ← units[k]?
  let scope ← (Scope.ofUnit (.after config.minPages (units.take k)) u).toOption
  let (_, segment) ← (Assembly.lowerFunctions scope config.traced u).toOption
  return segment

/-- Where the literals of the first units end that are linked, if they are placed one after the other. -/
def Link.dataEnd (config : Config) (units : List SourceUnit) : (k : Nat) → Nat
  | 0 => Layout.dataStart
  | k + 1 => dataEnd config units k + (segment? config units k).elim 0 fun seg => Segment.spaceOf seg.strings

/-- **Literals are placed in order.** -/
theorem Link.dataEnd_mono (config : Config) (units : List SourceUnit) {j k : Nat} (h : j ≤ k) :
    dataEnd config units j ≤ dataEnd config units k := by
  induction h with
  | refl => exact Nat.le_refl _
  | step _ ih => exact Nat.le_trans ih (Nat.le_add_right _ _)

/-- **No segment wraps** if all literals together do not. -/
theorem Link.segment_fits {config : Config} {units : List SourceUnit}
    (hfits : dataEnd config units units.length < 4294967296) {k : Nat} {u : SourceUnit} (hu : units[k]? = some u)
    {segment : Segment} (hsegment : segment? config units k = some segment) :
    Segment.spaceOf segment.strings < 4294967296 := by
  have hk : k + 1 ≤ units.length := (List.getElem?_eq_some_iff.1 hu).1
  have hend := dataEnd_mono config units hk
  rw [dataEnd, hsegment, Option.elim_some] at hend
  omega

theorem Link.Emits.unit {config : Config} {units : List SourceUnit} {k q : Nat} {text : String} {offset : Nat}
    (he : Emits config units k q text offset) : ∃ u, units[k]? = some u := by
  obtain ⟨u, _, hu, -⟩ := he
  exact ⟨u, hu⟩

section Linked

variable {config : Config} {units : List SourceUnit} {p : Program} (h : link config units = .ok p)
include h

/-- **Every unit of a link has a module,** assembled over what the units before it leave. -/
theorem Link.module_of_unit {k : Nat} {u : SourceUnit} (hu : units[k]? = some u) :
    ∃ a, p.modules[k]? = some a ∧ assemble config (.after config.minPages (units.take k)) u =
      .ok (a, .after config.minPages (units.take (k + 1))) := by
  obtain ⟨hlength, hall⟩ := assemble_of_link h
  have hk : k < p.modules.length := hlength ▸ (List.getElem?_eq_some_iff.1 hu).1
  have ha : p.modules[k]? = some p.modules[k] := List.getElem?_eq_getElem hk
  exact ⟨_, ha, hall k u _ hu ha⟩

/-- **A module has one segment for all literals of its unit,** and each stands where its address says. -/
theorem Link.segment_of_unit {k : Nat} {u : SourceUnit} (hu : units[k]? = some u) :
    ∃ (a : Assembled) (segment : Segment), p.modules[k]? = some a ∧ segment? config units k = some segment ∧
      a.code.data = segment.bytes ∧ a.summary.dataSize = segment.size ∧
      ∀ q text offset, Emits config units k q text offset →
        segment.offset? text = some offset ∧
        ∃ body, a.code.bodies[q]? = some body ∧ (Segment.address offset).Within body.code := by
  obtain ⟨a, ha, hassemble⟩ := module_of_unit h hu
  obtain ⟨scope, bodies, segment, _, _, hs, hlower, -, -, hcode, -⟩ := assemble_eq_ok hassemble
  have hsize : a.summary.dataSize = segment.size := by
    rw [dataSize_of_assemble hassemble, hcode]
    exact segment.length_bytes
  have hsegment : segment? config units k = some segment := by
    simp [segment?, hu, hs, hlower, Except.toOption]
  refine ⟨a, segment, ha, hsegment, by rw [hcode], hsize, ?_⟩
  rintro q text offset ⟨v, scope', hv, hs', he⟩
  cases hu.symm.trans hv
  cases hs.symm.trans hs'
  obtain ⟨hoffset, body, hbody, hwithin⟩ := he.placed hlower
  exact ⟨hoffset, body, by rw [hcode]; exact hbody, hwithin⟩

/-- **For every literal of a linked function an address is emitted.** -/
theorem Link.exists_emits {k q : Nat} {u : SourceUnit} {f : Function} {text : String} (hu : units[k]? = some u)
    (hf : u.functions[q]? = some f) (htext : f.HasLiteral config.traced text) :
    ∃ offset, Emits config units k q text offset := by
  obtain ⟨a, -, hassemble⟩ := module_of_unit h hu
  obtain ⟨scope, bodies, segment, _, _, hs, hlower, -, -, -, -⟩ := assemble_eq_ok hassemble
  obtain ⟨offset, he⟩ := u.exists_emits hlower hf htext
  exact ⟨offset, u, scope, hu, hs, he⟩

/-- **The size of a module's segment** is in its last global, which is exported for the loader. -/
theorem Link.size_of_link {k : Nat} {u : SourceUnit} {a : Assembled} (hu : units[k]? = some u)
    (ha : p.modules[k]? = some a) :
    a.summary.dataSize = a.code.data.length ∧
    a.code.globals[u.globals.length]? = some ⟨.i32, .const (.i32 (BitVec.ofNat 32 a.summary.dataSize))⟩ ∧
    ⟨Loader.dataSize, .global, a.code.globalImports.length + u.globals.length⟩ ∈ a.code.exports := by
  have hassemble := (assemble_of_link h).2 k u a hu ha
  have hsize := dataSize_of_assemble hassemble
  obtain ⟨scope, bodies, segment, globals, exports, hs, hlower, hglobals, hexports, hcode, -⟩ :=
    assemble_eq_ok hassemble
  refine ⟨hsize, ?_, ?_⟩
  · have hcount : globals.length = u.globals.length := by
      have hmap := congrArg List.length (Assembly.map_of_globalDefs hglobals)
      rwa [List.length_map, List.length_map, eq_comm] at hmap
    rw [hsize, hcode, ← hcount, List.getElem?_concat_length, segment.length_bytes]
    rfl
  · obtain ⟨own, -, hown⟩ := Assembly.exports_eq_ok hexports
    rw [← length_globals_of_link h hu ha hs, hcode, hown]
    exact List.mem_append_right _ List.mem_cons_self

section Fits

variable (hfits : Link.dataEnd config units units.length < 4294967296)
include hfits

/-- **The sizes that modules tell** are those of their literals, so that segments start where literals end. -/
theorem Link.dataStart_eq {k : Nat} (hk : k ≤ units.length) : p.dataStart k = dataEnd config units k := by
  induction k with
  | zero => rfl
  | succ k ih =>
    have hu : units[k]? = some units[k] := List.getElem?_eq_getElem hk
    obtain ⟨a, segment, ha, hsegment, -, hsize, -⟩ := segment_of_unit h hu
    rw [Program.dataStart_succ ha, ih (Nat.le_of_succ_le hk), hsize, dataEnd, hsegment, Option.elim_some,
      Segment.size_eq (segment_fits hfits hu hsegment)]

/-- **A literal lies in the segment of its module.** -/
theorem Link.Emits.bounds {k q : Nat} {text : String} {offset : Nat} (he : Emits config units k q text offset) :
    k < p.modules.length ∧ p.dataStart k + offset + Segment.space text ≤ p.dataStart (k + 1) := by
  obtain ⟨u, hu⟩ := he.unit
  obtain ⟨a, segment, ha, hsegment, -, hsize, hall⟩ := segment_of_unit h hu
  have hend := (Segment.image_at (segment_fits hfits hu hsegment) (hall q text offset he).1).2
  rw [Program.dataStart_succ ha]
  exact ⟨(List.getElem?_eq_some_iff.1 ha).1, by omega⟩

/-- **String data is faithful across a linked program.**  Place the segments one after the other from `128` on,
each behind as many bytes as the one before says that it takes, and let all literals together end below `2³²`.
Then no size wraps: segments start where the literals before them end.  Every module's size is the one in its
summary, the one in the global that it exports for the loader, and the number of bytes of its segment.  Wherever
code emits an address for a literal, the segment has the literal's bytes and a zero byte at the offset of that
address, and the address is where they are in memory.  Different literals of a module, and any literals of
different modules, take bytes that are apart, all from `128` on. -/
theorem Link.string_data :
    (∀ k ≤ units.length, p.dataStart k = dataEnd config units k) ∧
    (∀ (k : Nat) (u : SourceUnit) (a : Assembled), units[k]? = some u → p.modules[k]? = some a →
      ∃ size : BitVec 32, a.code.globals[u.globals.length]? = some ⟨.i32, .const (.i32 size)⟩ ∧
        ⟨Loader.dataSize, .global, a.code.globalImports.length + u.globals.length⟩ ∈ a.code.exports ∧
        size.toNat = a.summary.dataSize ∧ a.summary.dataSize = a.code.data.length) ∧
    (∀ (k q : Nat) (u : SourceUnit) (f : Function) (text : String), units[k]? = some u →
      u.functions[q]? = some f → f.HasLiteral config.traced text → ∃ offset, Emits config units k q text offset) ∧
    (∀ k q text offset, Emits config units k q text offset →
      (∃ a body, p.modules[k]? = some a ∧ a.code.bodies[q]? = some body ∧
        (Segment.address offset).Within body.code ∧ utf8 text ++ [0] <+: a.code.data.drop offset) ∧
      128 ≤ p.dataStart k + offset ∧
      (∀ (spaces : IndexSpaces) (inst : Instance spaces) (fuel : Nat) (m : Machine),
        inst.globals[Layout.dataStartGlobal]? = some (.i32 (BitVec.ofNat 32 (p.dataStart k))) →
        ∃ w : BitVec 32, Code.exec inst fuel (Segment.address offset) m =
          .next { m with stack := .i32 w :: m.stack } ∧ w.toNat = p.dataStart k + offset) ∧
      ∀ k' q' text' offset', Emits config units k' q' text' offset' → (k = k' → text ≠ text') →
        p.dataStart k + offset + (utf8 text ++ [0]).length ≤ p.dataStart k' + offset' ∨
        p.dataStart k' + offset' + (utf8 text' ++ [0]).length ≤ p.dataStart k + offset) := by
  have htotal {k : Nat} (hk : k < p.modules.length) : p.dataStart (k + 1) < 4294967296 := by
    have hk : k + 1 ≤ units.length := (assemble_of_link h).1 ▸ hk
    rw [dataStart_eq h hfits hk]
    exact Nat.lt_of_le_of_lt (dataEnd_mono config units hk) hfits
  refine ⟨fun k => dataStart_eq h hfits, fun k u a hu ha => ?_, fun k q u f text => exists_emits h,
    fun k q text offset he => ⟨?_, ?_, ?_, ?_⟩⟩
  · obtain ⟨hsize, hglobal, hexport⟩ := size_of_link h hu ha
    have hbound := htotal (List.getElem?_eq_some_iff.1 ha).1
    rw [Program.dataStart_succ ha] at hbound
    refine ⟨_, hglobal, hexport, ?_, hsize⟩
    rw [BitVec.toNat_ofNat]
    exact Nat.mod_eq_of_lt (by omega)
  · obtain ⟨u, hu⟩ := he.unit
    obtain ⟨a, segment, ha, hsegment, hdata, -, hall⟩ := segment_of_unit h hu
    obtain ⟨hoffset, body, hbody, hwithin⟩ := hall q text offset he
    refine ⟨a, body, ha, hbody, hwithin, ?_⟩
    rw [hdata]
    exact (Segment.image_at (segment_fits hfits hu hsegment) hoffset).1
  · exact Nat.le_add_right_of_le (Program.dataStart_mono (Nat.zero_le k))
  · intro spaces inst fuel m hstart
    obtain ⟨hk, hbound⟩ := he.bounds h hfits
    have hend := htotal hk
    exact Segment.exec_address inst fuel m hstart (by omega)
  · intro k' q' text' offset' he' hdistinct
    obtain ⟨hk, hbound⟩ := he.bounds h hfits
    obtain ⟨hk', hbound'⟩ := he'.bounds h hfits
    have hlength (s : String) : (utf8 s ++ [0]).length = Segment.space s := by
      rw [List.length_append, length_utf8]
      rfl
    rw [hlength, hlength]
    rcases Nat.lt_trichotomy k k' with hlt | rfl | hlt
    · exact .inl (Nat.le_trans hbound (Nat.le_add_right_of_le (Program.dataStart_mono hlt)))
    · obtain ⟨u, hu⟩ := he.unit
      obtain ⟨_, segment, -, hsegment, -, -, hall⟩ := segment_of_unit h hu
      have hapart := Segment.apart (segment_fits hfits hu hsegment) (hall q text offset he).1
        (hall q' text' offset' he').1 (hdistinct rfl)
      omega
    · exact .inr (Nat.le_trans hbound' (Nat.le_add_right_of_le (Program.dataStart_mono hlt)))

end Fits

end Linked

namespace Tally

/-- A unit that names two things. -/
def namer : SourceUnit where
  name := "namer"
  decls := [
    .function
      { name := "sum", isPublic := true, args := [], locals := [], results := [.u32]
        body := .sequence [.ignore (.string "sum"), .string "count"] }]

/-- A unit that names one of them again. -/
def renamer : SourceUnit where
  name := "renamer"
  decls := [
    .function
      { name := "call", isPublic := true, args := [], locals := [], results := [.u32]
        body := .binary .add .u32 (.call "sum" []) (.string "count") }]

/-- **The literal of both units is in memory twice,** in front of the segment that has it again and in it, and
the name of the function is in memory once with the literal that equals it. -/
theorem string_data_namer :
    ∃ p o o', link { traced := true, validated := false } [namer, renamer] = .ok p ∧
      Link.dataEnd { traced := true, validated := false } [namer, renamer] 2 < 4294967296 ∧
      p.dataStart 1 = 128 + 17 ∧
      Link.Emits { traced := true, validated := false } [namer, renamer] 0 0 "count" o ∧
      Link.Emits { traced := true, validated := false } [namer, renamer] 1 0 "count" o' ∧
      128 ≤ p.dataStart 0 + o ∧
      (p.dataStart 0 + o + (utf8 "count" ++ [0]).length ≤ p.dataStart 1 + o' ∨
        p.dataStart 1 + o' + (utf8 "count" ++ [0]).length ≤ p.dataStart 0 + o) := by
  obtain ⟨p, hp⟩ : ∃ p, link { traced := true, validated := false } [namer, renamer] = .ok p := ⟨_, rfl⟩
  have hfits : Link.dataEnd { traced := true, validated := false } [namer, renamer] 2 < 4294967296 := by
    decide +kernel
  obtain ⟨hends, -, hliteral, hplaced⟩ := Link.string_data hp hfits
  have hstart : p.dataStart 1 = 128 + 17 := by
    rw [hends 1 (by decide)]
    decide +kernel
  have hcount : (Expr.string "count").Mentions "count" := .literal
  have hsecond (e e' : Expr) : e' ∈ [e, e'] := List.mem_cons_of_mem _ List.mem_cons_self
  obtain ⟨o, ho⟩ := hliteral 0 0 _ _ "count" rfl rfl (.inl (.part (hsecond _ _) hcount))
  obtain ⟨o', ho'⟩ := hliteral 1 0 _ _ "count" rfl rfl (.inl (.part (hsecond _ _) hcount))
  obtain ⟨-, hbehind, -, hapart⟩ := hplaced 0 0 "count" o ho
  exact ⟨p, o, o', hp, hfits, hstart, ho, ho', hbehind, hapart 1 0 "count" o' ho' (by rintro ⟨⟩)⟩

end Tally

end WasmLowering
