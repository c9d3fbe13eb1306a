/-
# Trace records leave a run alone

The code of a traced function is that of the untraced one between two records:

| part    | what it does                                       | what it may change                |
|---------|----------------------------------------------------|-----------------------------------|
| `entry` | writes the name and the arguments, calls the hook  | the trace window                  |
| `code`  | the body                                           |                                   |
| `exit`  | copies the result, writes it, calls the hook       | the window, the scratch registers |

The code of a record changes the bytes of its fields and of the end tag and nothing
else (`Trace.exec_stores`).  The budget keeps them within the window, bytes `4` to
`127`.
-/

import WasmLowering.Proofs.TraceRecords

namespace WasmLowering

open Wasm Lower

/-- An instance whose hook looks at the record and changes nothing. -/
structure Wasm.Instance.Quiet {spaces : IndexSpaces} (inst : Instance spaces) : Prop where
  hook : spaces.functions[Layout.traceHook]? = some ⟨[], []⟩
  dataStart : spaces.globals[Layout.dataStartGlobal]? = some .i32
  call : ∀ memory, inst.call Layout.traceHook [] memory = .ok ([], memory)

/-- Two states that a record may lie between: the memories agree outside the trace window, the words at
hand are the same. -/
structure Wasm.Machine.Untouched (m m' : Machine) : Prop where
  stack : m'.stack = m.stack
  memory : m.memory.AgreeOff Layout.traceStart Layout.traceEnd m'.memory

section Quiet

variable {spaces : IndexSpaces} {inst : Instance spaces} (hquiet : inst.Quiet) (fuel : Nat) {m : Machine}
include hquiet

/-- **The call of a quiet hook changes nothing.** -/
theorem Wasm.Instance.Quiet.exec_hook : Code.exec inst fuel [.call Layout.traceHook] m = .next m := by
  have hcall : m.call inst Layout.traceHook = .ok m := by
    have hargs : m.stack = [].reverse ++ m.stack := rfl
    rw [Machine.call_eq inst hquiet.hook rfl hargs, hquiet.call]
    rfl
  rw [Code.exec_call, hcall]
  rfl

/-- **A record** is written within the trace window and shown to the hook. -/
theorem Trace.exec_record {fields : List TraceField} {code : Code} (h : record fields = .ok code)
    (hfields : ∀ f ∈ fields, f.Readable (m.locals.map Value.kind)) (hroom : Layout.traceEnd ≤ m.memory.size) :
    ∃ m', Code.exec inst fuel code m = .next m' ∧ m.Untouched m' ∧ m'.locals = m.locals := by
  obtain ⟨hsize, rfl⟩ := record_eq_ok h
  obtain ⟨start, hstart⟩ : ∃ start, inst.globals[Layout.dataStartGlobal]? = some (.i32 start) := by
    have hkind := hquiet.dataStart
    rw [← inst.kind_globals, List.getElem?_map] at hkind
    obtain ⟨v, hv, hk⟩ := Option.map_eq_some_iff.1 hkind
    obtain ⟨start, rfl⟩ := eq_i32_of_kind hk
    exact ⟨start, hv⟩
  have hend : Layout.traceStart + size fields ≤ Layout.traceEnd := by
    unfold Layout.traceBudget at hsize
    unfold Layout.traceStart Layout.traceEnd at hsize ⊢
    omega
  obtain ⟨entries, hentries⟩ := exists_entries start hfields
  rw [size_of_entries hentries] at hend
  have hagree := agreeOff_put Layout.traceStart entries m.memory
  refine ⟨{ m with memory := put Layout.traceStart entries m.memory }, ?_,
    ⟨rfl, hagree.mono (Nat.le_refl _) hend⟩, rfl⟩
  rw [Code.exec_append, exec_stores inst fuel hstart hentries (Nat.le_trans hend hroom)]
  exact hquiet.exec_hook fuel

end Quiet

/-! ## Traced functions -/

namespace Function

variable {scope : Scope} {f : Function} {seg seg' : Segment} {body : FuncBody}

/-- The code that drops the value of a body whose function has no result. -/
def discard (f : Function) : Code := if f.resultKind.isNone then [.drop] else []

/-- **Without tracing, a function is its body** and what drops the body's value. -/
theorem lower_untraced (hresults : f.results.length ≤ 1) {code : Code} {st : LowerState}
    (hbody : f.body.lower scope f.frame (.start seg) = .ok code st) (hdepth : st.depth = 0) :
    f.lower scope false seg = .ok ⟨f.localKinds st.slots, code ++ f.discard⟩ st.segment := by
  have hlower : f.lower scope false seg =
      .ok ⟨f.localKinds st.slots, [] ++ code ++ [] ++ f.discard⟩ st.segment :=
    lower_of_parts hresults rfl hbody hdepth rfl
  rw [List.nil_append, List.append_nil] at hlower
  exact hlower

/-- **With tracing, a function is its body between two records,** lowered with the function's name in the
segment. -/
theorem lower_traced (h : f.lower scope true seg = .ok body seg') :
    f.results.length ≤ 1 ∧ ∃ entry code exit st,
      Trace.record (Trace.entryFields (seg.intern f.name).1 f.type.params) = .ok entry ∧
      f.body.lower scope f.frame (.start (seg.intern f.name).2) = .ok code st ∧ st.depth = 0 ∧
      Trace.record (Trace.exitFields (st.segment.intern Trace.returnMarker).1 f.resultKind f.frame.registers) =
        .ok exit ∧
      seg' = (st.segment.intern Trace.returnMarker).2 ∧
      body = ⟨f.localKinds st.slots,
        entry ++ code ++ ((f.resultKind.map f.frame.registers.tee).toList ++ exit) ++ f.discard⟩ := by
  obtain ⟨hresults, entry, mid, code, st, exit, hentry, hbody, hdepth, hexit, rfl⟩ := lower_eq_ok h
  obtain ⟨rfl, hwritten⟩ := Trace.entry_eq_ok hentry
  obtain ⟨rfl, record, hrecord, rfl⟩ := Trace.exit_eq_ok hexit
  exact ⟨hresults, entry, code, record, st, hwritten, hbody, hdepth, hrecord, rfl, rfl⟩

section Quiet

variable {spaces : IndexSpaces} {inst : Instance spaces} {fuel slots : Nat} {m : Machine}

/-- **The record of entry leaves the run alone.** -/
theorem exec_entry (hquiet : inst.Quiet) {offset : Nat} {entry : Code}
    (h : Trace.record (Trace.entryFields offset f.type.params) = .ok entry)
    (hlocals : m.locals.map Value.kind = f.type.params ++ f.localKinds slots)
    (hroom : Layout.traceEnd ≤ m.memory.size) :
    ∃ m', Code.exec inst fuel entry m = .next m' ∧ m.Untouched m' ∧ m'.locals = m.locals := by
  have hfields := Trace.readable_entryFields offset f.type.params (f.localKinds slots)
  rw [← hlocals] at hfields
  exact Trace.exec_record hquiet fuel h hfields hroom

/-- **The result is copied to its register** and stays on the stack. -/
theorem exec_tee {result : Option Kind} (hresult : ∀ k ∈ result, m.stack.head?.map Value.kind = some k)
    (hlocals : m.locals.map Value.kind = f.type.params ++ f.localKinds slots) :
    ∃ m', Code.exec inst fuel (result.map f.frame.registers.tee).toList m = .next m' ∧ m'.stack = m.stack ∧
      m'.memory = m.memory ∧ m'.locals.map Value.kind = m.locals.map Value.kind ∧
      ∀ i, i < f.args.length ∨ f.args.length + 3 ≤ i → m'.locals[i]? = m.locals[i]? := by
  cases result with
  | none => exact ⟨m, rfl, rfl, rfl, rfl, fun _ _ => rfl⟩
  | some k =>
    obtain ⟨v, hv, hk⟩ := Option.map_eq_some_iff.1 (hresult k rfl)
    obtain ⟨ws, hstack⟩ := List.head?_eq_some_iff.1 hv
    have hregister : (f.type.params ++ f.localKinds slots)[f.frame.registers.forKind k]? = some v.kind := by
      rw [hk]
      exact (f.kinds_locals slots).register k
    have hm : m.Holds (f.type.params ++ f.localKinds slots) [] m.stack := ⟨hlocals, [], rfl, rfl⟩
    have hstep : (Plain.localTee (f.frame.registers.forKind k)).step inst.globals m =
        .ok { m with locals := m.locals.set (f.frame.registers.forKind k) v } := by
      rw [Plain.step, hstack]
      exact if_pos (hm.lt_locals hregister)
    refine ⟨_, Code.exec_plain inst hstep [], rfl, rfl, ?_, fun i hi => List.getElem?_set_ne ?_⟩
    · rw [hlocals]
      exact hm.map_set hregister
    · cases k <;> simp only [Registers.forKind, Registers.first, Registers.wide, frame, Frame.registers] <;> omega

/-- **The record of return leaves the run alone,** the scratch registers apart. -/
theorem exec_exit (hquiet : inst.Quiet) {offset : Nat} {exit : Code}
    (h : Trace.record (Trace.exitFields offset f.resultKind f.frame.registers) = .ok exit)
    (hresult : ∀ k ∈ f.resultKind, m.stack.head?.map Value.kind = some k)
    (hlocals : m.locals.map Value.kind = f.type.params ++ f.localKinds slots)
    (hroom : Layout.traceEnd ≤ m.memory.size) :
    ∃ m', Code.exec inst fuel ((f.resultKind.map f.frame.registers.tee).toList ++ exit) m = .next m' ∧
      m.Untouched m' ∧ m'.locals.length = m.locals.length ∧
      ∀ i, i < f.args.length ∨ f.args.length + 3 ≤ i → m'.locals[i]? = m.locals[i]? := by
  obtain ⟨m₁, htee, hstack, hmemory, hkinds, hothers⟩ := exec_tee hresult hlocals
  have hfields : ∀ g ∈ Trace.exitFields offset f.resultKind f.frame.registers,
      g.Readable (m₁.locals.map Value.kind) := by
    rw [hkinds, hlocals]
    exact Trace.readable_exitFields offset f.resultKind (f.kinds_locals slots).register
  obtain ⟨m', hrecord, huntouched, hsame⟩ := Trace.exec_record hquiet fuel h hfields (by rwa [hmemory])
  refine ⟨m', (Code.exec_append_eq_next inst).2 ⟨m₁, htee, hrecord⟩, ⟨?_, ?_⟩, ?_, fun i hi => ?_⟩
  · rw [huntouched.stack, hstack]
  · rw [← hmemory]
    exact huntouched.memory
  · rw [hsame, ← List.length_map Value.kind, hkinds, List.length_map]
  · rw [hsame, hothers i hi]

end Quiet

/-- **Tracing is transparent.**  A traced function is its body, as it is lowered with the function's name in
the segment, between two records, and then what drops the body's value, just as without tracing.  A record
is plain code up to its one call, of the hook.  Whatever state of the function they start from, if the hook
changes nothing and the memory has room for the window, both records come to their end and leave the words on
the stack, all bytes outside the window and all locals as they are, the scratch registers apart on return. -/
theorem trace_transparent (h : f.lower scope true seg = .ok body seg') :
    ∃ entry code exit st,
      body.code = entry ++ code ++ exit ++ f.discard ∧
      f.body.lower scope f.frame (.start (seg.intern f.name).2) = .ok code st ∧
      f.lower scope false (seg.intern f.name).2 = .ok ⟨body.locals, code ++ f.discard⟩ st.segment ∧
      (∀ start untraced after, f.lower scope false start = .ok untraced after →
        ∃ plain st', f.body.lower scope f.frame (.start start) = .ok plain st' ∧
          untraced.code = plain ++ f.discard) ∧
      (∃ writes : Code, writes.isPlain = true ∧ entry = writes ++ [.call Layout.traceHook]) ∧
      (∃ writes : Code, writes.isPlain = true ∧ exit = writes ++ [.call Layout.traceHook]) ∧
      ∀ (spaces : IndexSpaces) (inst : Instance spaces), inst.Quiet → ∀ (fuel : Nat) (m : Machine),
        m.locals.map Value.kind = f.type.params ++ body.locals → Layout.traceEnd ≤ m.memory.size →
        (∃ m', Code.exec inst fuel entry m = .next m' ∧ m.Untouched m' ∧ m'.locals = m.locals) ∧
        ((∀ k ∈ f.resultKind, m.stack.head?.map Value.kind = some k) →
          ∃ m', Code.exec inst fuel exit m = .next m' ∧ m.Untouched m' ∧ m'.locals.length = m.locals.length ∧
            ∀ i, i < f.args.length ∨ f.args.length + 3 ≤ i → m'.locals[i]? = m.locals[i]?) := by
  obtain ⟨hresults, entry, code, record, st, hentry, hbody, hdepth, hrecord, -, rfl⟩ := lower_traced h
  obtain ⟨-, hwrites⟩ := Trace.record_eq_ok hentry
  obtain ⟨-, hwrites'⟩ := Trace.record_eq_ok hrecord
  refine ⟨entry, code, (f.resultKind.map f.frame.registers.tee).toList ++ record, st, rfl, hbody,
    lower_untraced hresults hbody hdepth, ?_, ⟨_, ?_, hwrites⟩, ?_, ?_⟩
  · intro start untraced after huntraced
    obtain ⟨-, before, mid, plain, st', behind, hbefore, hplain, -, hbehind, rfl⟩ := lower_eq_ok huntraced
    obtain ⟨rfl, rfl⟩ := pure_eq_ok.1 hbefore
    obtain ⟨rfl, -⟩ := pure_eq_ok.1 hbehind
    exact ⟨plain, st', hplain, by rw [List.nil_append, List.append_nil]; rfl⟩
  · exact Trace.isPlain_stores _
  · refine ⟨(f.resultKind.map f.frame.registers.tee).toList ++ _, ?_, by rw [hwrites', List.append_assoc]⟩
    cases f.resultKind <;> exact Trace.isPlain_stores _
  · intro spaces inst hquiet fuel m hlocals hroom
    exact ⟨exec_entry hquiet hentry hlocals hroom,
      fun hresult => exec_exit hquiet hrecord hresult hlocals hroom⟩

end Function

namespace Tally

/-- What the functions do if the hook changes nothing. -/
def quietCall (i : Nat) (args : List Value) (memory : Memory) : Except Halt (List Value × Memory) :=
  if i = 0 then .ok ([], memory) else call i args memory

theorem kind_quietCall {i : Nat} {t : FuncType} {args results : List Value} {before after : Memory}
    (ht : spaces.functions[i]? = some t) (hcall : quietCall i args before = .ok (results, after)) :
    results.map Value.kind = t.results := by
  unfold quietCall at hcall
  by_cases hi : i = 0
  · subst hi
    rw [if_pos rfl] at hcall
    cases ht
    cases hcall
    rfl
  · rw [if_neg hi] at hcall
    exact inst.kind_call ht hcall

theorem quietCall_ne_stuck (i : Nat) (args : List Value) (memory : Memory) :
    quietCall i args memory ≠ .error .stuck := by
  unfold quietCall
  by_cases hi : i = 0
  · rw [if_pos hi]
    rintro ⟨⟩
  · rw [if_neg hi]
    exact inst.call_ne_stuck i args memory

def quietInst : Instance spaces where
  globals := inst.globals
  kind_globals := inst.kind_globals
  call := quietCall
  kind_call := kind_quietCall
  call_ne_stuck := quietCall_ne_stuck

theorem quiet : quietInst.Quiet := ⟨rfl, rfl, fun _ => rfl⟩

/-- **The record that the tally returns with** leaves the count on the stack, the argument and the byte behind
the window as they are. -/
theorem trace_transparent_tally :
    ∃ body seg entry code exit, function.lower scope true .empty = .ok body seg ∧ quietInst.Quiet ∧
      body.code = entry ++ code ++ exit ∧ machine.locals.map Value.kind = function.type.params ++ body.locals ∧
      (∃ m', Code.exec quietInst 4 entry machine = .next m' ∧ m'.stack = [.i64 5] ∧ m'.locals = machine.locals) ∧
      ∃ m', Code.exec quietInst 4 exit { machine with stack := [.i32 3, .i64 5] } = .next m' ∧
        m'.stack = [.i32 3, .i64 5] ∧ m'.locals[0]? = some (.i32 0) ∧ m'.memory.byte 128 = memory.byte 128 := by
  obtain ⟨body, seg, hlower⟩ : ∃ body seg, function.lower scope true .empty = .ok body seg := ⟨_, _, rfl⟩
  obtain ⟨entry, code, exit, st, hcode, -, -, -, -, -, hruns⟩ := Function.trace_transparent hlower
  have hlocals : machine.locals.map Value.kind = function.type.params ++ body.locals := by
    cases hlower
    rfl
  obtain ⟨⟨m₁, hentry, huntouched, hsame⟩, -⟩ := hruns spaces quietInst quiet 4 machine hlocals (by decide)
  obtain ⟨-, hexit⟩ :=
    hruns spaces quietInst quiet 4 { machine with stack := [.i32 3, .i64 5] } hlocals (by decide)
  obtain ⟨m₂, hexit, huntouched', -, hothers⟩ := hexit (by rintro k ⟨⟩; rfl)
  refine ⟨body, seg, entry, code, exit, hlower, quiet, ?_, hlocals, ⟨m₁, hentry, huntouched.stack, hsame⟩,
    m₂, hexit, huntouched'.stack, hothers 0 (.inl (by decide)), huntouched'.memory.byte 128 (.inr (by decide))⟩
  rw [hcode]
  exact List.append_nil _

end Tally

end WasmLowering
