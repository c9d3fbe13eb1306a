/-
# Frames balance, and the mark comes back

A function's code is refused unless the frames that its body opens are closed at
its end, counted along the text.  If the condition of every loop leaves as many
frames open as it found, what is counted along the text is what a run has open,
and each frame that a run opens is closed by the same run.

While no frame is open, the mark of such a run is the one that it began with; while
some are, that mark is kept in the first slot (`Terms.Holds`):

| event      | no frame open             | some frame open           |
|------------|---------------------------|---------------------------|
| `buffer`   | not allowed               | moves the mark only       |
| `store`    | not over the mark         | changes memory only       |
| `call`     | keeps the mark            | changes memory only       |
| `opened`   | saves the mark            | saves it in another slot  |
| `closed`   | cannot be                 | restores it, if the last  |

A loop is left behind its condition, though, and the frames are counted there as
if its body had run.  A frame that the condition opens stays open then, and the
mark stays where it is.
-/

import WasmLowering.Proofs.Following
import WasmLowering.Proofs.Preservation

namespace WasmLowering

open Wasm Lower

namespace Event

/-- Whether an event leaves the mark alone, those aside that buffers and frames are made of: no element is
written over it, and a function that is called brings it back. -/
def keepsMark : Event → Bool
  | store address _ => 4 ≤ address
  | call before after => after.mark = before.mark
  | _ => true

end Event

/-- The frames that are open after some events, by those that are open before; none if a frame is closed
while none is open. -/
def openFrames : List Event → (depth : Nat) → Option Nat
  | [], d => some d
  | .opened :: log, d => openFrames log (d + 1)
  | .closed :: _, 0 => none
  | .closed :: log, d + 1 => openFrames log d
  | _ :: log, d => openFrames log d

theorem openFrames_append (log log' : List Event) (d : Nat) :
    openFrames (log ++ log') d = (openFrames log d).bind (openFrames log') := by
  induction log generalizing d with
  | nil => rfl
  | cons e log ih =>
    cases e with
    | opened => exact ih (d + 1)
    | closed =>
      cases d with
      | zero => rfl
      | succ d => exact ih d
    | buffer | store | call => exact ih d

/-- The mark that a run began with is the mark, or is saved in the first slot if a frame is open. -/
def Terms.Holds {spaces : IndexSpaces} (t : Terms spaces) (mark : Option (BitVec 32)) : Nat → Machine → Prop
  | 0, m => m.memory.mark = mark
  | _ + 1, m => ∃ w, mark = some w ∧ m.locals[t.frame.slot 0]? = some (.i32 w)

section Trails

variable {spaces : IndexSpaces} {t : Terms spaces} {d d' : Nat} {m m' : Machine} {log : List Event}
  {mark : Option (BitVec 32)}

/-- **A step that keeps the mark and the slots** keeps the mark that the run began with. -/
theorem Terms.Holds.of_keeps (h : t.Holds mark d m) (hmark : d = 0 → m'.memory.mark = m.memory.mark)
    (hslots : KeepsSlots t.frame m m') : t.Holds mark d m' := by
  cases d with
  | zero => exact (hmark rfl).trans h
  | succ d =>
    obtain ⟨w, hw, hslot⟩ := h
    exact ⟨w, hw, (hslots _ (Nat.le_refl _)).trans hslot⟩

/-- **The open frames are those that a strict trail counts.** -/
theorem Trail.openFrames_eq (h : Trail t d m log d' m') (hs : t.strict) : openFrames log d = some d' := by
  induction h with
  | still | store | call | opened | closed => rfl
  | left hd => rw [hd hs, openFrames]
  | @trans _ d₁ _ _ _ _ _ _ _ _ ih ih' =>
    rw [openFrames_append, ih]
    exact ih'
  | buffer _ _ _ _ _ _ _ _ ih =>
    rw [openFrames_append, ih]
    rfl

/-- **A strict trail keeps the mark that the run began with.** -/
theorem Trail.holds (h : Trail t d m log d' m') (hs : t.strict) (hlog : log.all Event.keepsMark = true)
    (hm : t.Holds mark d m) : t.Holds mark d' m' := by
  induction h with
  | still hstill => exact hm.of_keeps (fun _ => hstill.mark) hstill.locals
  | left hd =>
    rw [← hd hs]
    exact hm
  | trans _ _ ih ih' =>
    rw [List.all_append, Bool.and_eq_true] at hlog
    exact ih' hlog.2 (ih hlog.1 hm)
  | @buffer _ d' _ _ _ _ _ _ _ _ _ hslots _ hframed _ ih =>
    rw [List.all_append, Bool.and_eq_true] at hlog
    exact (ih hlog.1 hm).of_keeps (fun hd => absurd hd (Nat.ne_of_gt (hframed hs))) hslots
  | @store _ address _ _ _ _ hstore hslots =>
    have haddress : Event.keepsMark (.store address _) = true := List.all_eq_true.1 hlog _ (.head _)
    exact hm.of_keeps (fun _ => Memory.mark_store hstore (of_decide_eq_true haddress)) hslots
  | @call _ m m' hslots =>
    have hcall : Event.keepsMark (.call m.memory m'.memory) = true := List.all_eq_true.1 hlog _ (.head _)
    exact hm.of_keeps (fun _ => of_decide_eq_true hcall) hslots
  | @opened d _ _ w hw _ hslot hbelow =>
    cases d with
    | zero => exact ⟨w, hm.symm.trans hw, hslot⟩
    | succ d =>
      obtain ⟨w', hw', hslot'⟩ := hm
      exact ⟨w', hw', (hbelow 0 (Nat.succ_pos d)).trans hslot'⟩
  | @closed d _ m' w hslot hset hslots =>
    obtain ⟨w', hw', hslot'⟩ := hm
    cases d with
    | zero =>
      -- the slot of the last frame is the one that holds the mark
      obtain rfl : w = w' := by
        rw [hslot] at hslot'
        cases hslot'
        rfl
      show m'.memory.mark = mark
      rw [Memory.mark_setMark hset, hw']
    | succ d => exact ⟨w', hw', (hslots _ (Nat.le_refl _)).trans hslot'⟩

end Trails

/-! ## The code of functions -/

theorem Wasm.Code.isSilent_append {bound : Nat} {a b : Code} (ha : a.isSilent bound = true)
    (hb : b.isSilent bound = true) : Code.isSilent bound (a ++ b) = true := by
  induction a with
  | nil => exact hb
  | cons i is ih =>
    cases i with
    | plain p =>
      rw [Code.isSilent, Bool.and_eq_true] at ha
      rw [List.cons_append, Code.isSilent, Bool.and_eq_true]
      exact ⟨ha.1, ih ha.2⟩
    | call | br | cond | loop => cases ha

namespace Trace

/-- **Fields are written behind the mark.** -/
theorem isSilent_stores (bound : Nat) {fields : List TraceField} {position : Nat} (h : 4 ≤ position) :
    (stores position fields).isSilent bound = true := by
  induction fields generalizing position with
  | nil => simpa [stores, TraceField.storeTag, Code.isSilent, Plain.isSilent] using h
  | cons f fs ih =>
    refine Code.isSilent_append (Code.isSilent_append ?_ ?_) (ih (by omega))
    · simpa [TraceField.storeTag, Code.isSilent, Plain.isSilent] using h
    · have h' : 4 ≤ position + 1 := by omega
      cases f with
      | string | word =>
        simpa [TraceField.storePayload, TraceField.storeWord, Segment.address, Code.isSilent, Plain.isSilent] using h'
      | increment | decrement => rfl

/-- **The record of entry** is written for the name where it is placed. -/
theorem entry_eq_ok {name : String} {args : List Kind} {seg seg' : Segment} {code : Code}
    (h : entry name args seg = .ok code seg') :
    seg' = (seg.intern name).2 ∧ record (entryFields (seg.intern name).1 args) = .ok code := by
  obtain ⟨offset, mid, hintern, h⟩ := bind_eq_ok.1 h
  obtain ⟨hrecord, rfl⟩ := lift_eq_ok.1 h
  cases hintern
  exact ⟨rfl, hrecord⟩

/-- **The record of return** is written for the marker where it is placed, once the result is set aside. -/
theorem exit_eq_ok {result : Option Kind} {r : Registers} {seg seg' : Segment} {code : Code}
    (h : exit result r seg = .ok code seg') :
    seg' = (seg.intern returnMarker).2 ∧ ∃ record,
      Trace.record (exitFields (seg.intern returnMarker).1 result r) = .ok record ∧
      code = (result.map r.tee).toList ++ record := by
  obtain ⟨offset, mid, hintern, h⟩ := bind_eq_ok.1 h
  obtain ⟨record, mid', hlift, h⟩ := bind_eq_ok.1 h
  obtain ⟨hrecord, rfl⟩ := lift_eq_ok.1 hlift
  obtain ⟨rfl, rfl⟩ := pure_eq_ok.1 h
  cases hintern
  exact ⟨rfl, record, hrecord, rfl⟩

section Steps

variable {spaces : IndexSpaces} {t : Terms spaces} {d : Nat} {m : Machine}

/-- **A record** leaves the trail of a call, the one of the hook. -/
theorem steps_record {fields : List TraceField} {code : Code} (h : record fields = .ok code) :
    Steps t code d d (Trace.watch t.inst t.fuel fields) m := by
  unfold record at h
  split at h
  · cases h
    exact Steps.seq (.silent (isSilent_stores _ (by decide))) fun _ _ => .call _
  · cases h

end Steps

end Trace

namespace Function

variable {spaces : IndexSpaces} {g : Setting spaces} {f : Function} {traced : Bool} {seg seg' : Segment}
  {body : FuncBody} {fuel : Nat} {m m' : Machine}

/-- The terms on which a function is watched, whatever kinds it has. -/
def terms (g : Setting spaces) (fuel : Nat) (f : Function) (strict : Prop) : Terms spaces :=
  ⟨g.inst, fuel, f.frame, strict, False, []⟩

/-- **The record of entry** leaves the trail of its watched run. -/
theorem steps_entry {strict : Prop} {code : Code}
    (h : (if traced then Trace.entry f.name (f.args.map Width.kind) else pure []) seg = .ok code seg')
    (hseg : seg'.strings <+: g.segment.strings) :
    Steps (f.terms g fuel strict) code 0 0
      (if traced then f.watchEntry g fuel else Run.silent g.inst fuel []) m := by
  cases traced with
  | false =>
    obtain ⟨rfl, rfl⟩ := pure_eq_ok.1 h
    exact .silent rfl
  | true =>
    obtain ⟨rfl, hrecord⟩ := Trace.entry_eq_ok h
    show Steps _ _ _ _ (f.watchEntry g fuel) m
    unfold watchEntry
    rw [Segment.offset?_of_intern hseg]
    exact Trace.steps_record hrecord

/-- **The record of return** leaves the trail of its watched run. -/
theorem steps_exit {strict : Prop} {code : Code}
    (h : (if traced then Trace.exit f.resultKind f.frame.registers else pure []) seg = .ok code seg')
    (hseg : seg'.strings <+: g.segment.strings) :
    Steps (f.terms g fuel strict) code 0 0
      (if traced then f.watchExit g fuel else Run.silent g.inst fuel []) m := by
  cases traced with
  | false =>
    obtain ⟨rfl, rfl⟩ := pure_eq_ok.1 h
    exact .silent rfl
  | true =>
    obtain ⟨rfl, record, hrecord, rfl⟩ := Trace.exit_eq_ok h
    show Steps _ _ _ _ (f.watchExit g fuel) m
    unfold watchExit
    rw [Segment.offset?_of_intern hseg]
    refine Steps.seq (.silent ?_) fun _ _ => Trace.steps_record hrecord
    cases f.resultKind with
    | none => rfl
    | some k =>
      have hregister : f.frame.registers.forKind k < f.frame.slot 0 := by
        rw [Frame.slot_eq]
        cases k <;> simp only [Registers.forKind, Registers.first, Registers.wide, Frame.registers] <;> omega
      show (decide (f.frame.registers.forKind k < f.frame.slot 0) && true) = true
      rw [decide_eq_true hregister, Bool.and_true]

/-- **The record of return** moves no strings. -/
theorem strings_exit {code : Code}
    (h : (if traced then Trace.exit f.resultKind f.frame.registers else pure []) seg = .ok code seg') :
    seg.strings <+: seg'.strings := by
  cases traced with
  | false =>
    obtain ⟨-, rfl⟩ := pure_eq_ok.1 h
    exact List.prefix_refl _
  | true =>
    obtain ⟨rfl, -⟩ := Trace.exit_eq_ok h
    exact Segment.strings_intern ..

/-- **Every run of a function's code that comes to its end is its watched run,** and leaves a trail. -/
theorem steps_lower {strict : Prop} (h : f.lower g.scope traced seg = .ok body seg')
    (hseg : seg'.strings <+: g.segment.strings) (hsteady : strict → f.body.steady = true)
    (hframed : strict → f.body.framed 0 = true) :
    Steps (f.terms g fuel strict) body.code 0 0 (f.watch g fuel traced) m := by
  obtain ⟨-, entry, mid, code, st, exit, hentry, hlower, hdepth, hexit, rfl⟩ := lower_eq_ok h
  have hlowers := Lowers.of_lower hlower
  have hst : st.segment.strings <+: g.segment.strings := (strings_exit hexit).trans hseg
  have hmid : mid.strings <+: g.segment.strings := hlowers.grows.strings.trans hst
  have hmeets : f.body.Meets (f.terms g fuel strict) g.scope [] 0 := ⟨hsteady, hframed, nofun⟩
  have hbody (m₁ : Machine) : Steps (f.terms g fuel strict) code 0 0 (f.body.watch g f.frame fuel 0) m₁ := by
    have hsteps := hlowers.steps (t := f.terms g fuel strict) nofun nofun hmeets (Nat.le_refl 0)
      ⟨hst, Nat.le_refl _⟩ m₁ nofun
    rwa [hdepth] at hsteps
  have hdiscard : Code.isSilent (f.frame.slot 0) (if f.resultKind.isNone then [.drop] else []) = true := by
    cases f.resultKind <;> rfl
  exact (((steps_entry hentry hmid).seq fun m₁ _ => hbody m₁).seq fun _ _ => steps_exit hexit hseg).seq
    fun _ _ => .silent hdiscard

/-- **The mark comes back.**  If the condition of every loop of a function leaves as many frames open as it
found, and every buffer is made within a frame, then every run of the function's code that comes to its end
closes each frame that it opens and no other, and if no element is written over the mark and every function
that is called brings the mark back, the mark is in the end what it was before. -/
theorem mark_of_exec (h : f.lower g.scope traced seg = .ok body seg')
    (hseg : seg'.strings <+: g.segment.strings) (hsteady : f.body.steady = true)
    (hframed : f.body.framed 0 = true) (hrun : Code.exec g.inst fuel body.code m = .next m') :
    ∃ log, f.watch g fuel traced m = .ok (log, m') ∧ openFrames log 0 = some 0 ∧
      (log.all Event.keepsMark = true → m'.memory.mark = m.memory.mark) := by
  have hsteps : Steps (f.terms g fuel True) body.code 0 0 (f.watch g fuel traced) m :=
    steps_lower h hseg (fun _ => hsteady) fun _ => hframed
  obtain ⟨log, hwatch, htrail⟩ := hsteps.next hrun
  refine ⟨log, hwatch, htrail.openFrames_eq trivial, fun hlog => ?_⟩
  have hm : (f.terms g fuel True).Holds m.memory.mark 0 m := rfl
  exact htrail.holds trivial hlog hm

end Function

namespace Tally

/-- A loop whose condition opens a frame and makes a buffer in it, and whose body closes the frame. -/
def leaky : Function where
  name := "leaky"
  isPublic := true
  args := []
  locals := []
  results := []
  body := .whileLoop
    (.sequence [.pushFrame, .ignore (.bufCreate 1 (.literal .u32 "8")), .literal .u32 "0"])
    .popFrame

def leakyMachine : Machine := ⟨[.i32 0, .i32 0, .i64 0, .i32 0], memory, []⟩

/-- A run of a function that comes to its end: its events, and the machine at the end. -/
def runFunction (f : Function) (m : Machine) : Option (List Event × Machine) :=
  match f.lower scope false .empty with
  | .error _ _ => none
  | .ok body _ =>
    match Code.exec inst 4 body.code m, f.watch setting 4 false m with
    | .next m', .ok (log, _) => some (log, m')
    | _, _ => none

theorem of_runFunction {f : Function} {m : Machine} {body : FuncBody} {seg : Segment}
    {p : List Event × Machine → Bool} (hlower : f.lower scope false .empty = .ok body seg)
    (h : (runFunction f m).any p = true) :
    ∃ m' log m₂, Code.exec inst 4 body.code m = .next m' ∧ f.watch setting 4 false m = .ok (log, m₂) ∧
      p (log, m') = true := by
  simp only [runFunction, hlower] at h
  split at h
  · next m' log m₂ hexec hwatch => exact ⟨m', log, m₂, hexec, hwatch, h⟩
  · cases h

end Tally

/-- A function that makes a buffer in a frame and calls another one leaves the mark at `128`. -/
theorem Tally.mark_function :
    ∃ body m', function.lower scope false .empty = .ok body .empty ∧
      Code.exec inst 4 body.code machine = .next m' ∧ m'.memory.mark = some 128 := by
  obtain ⟨body, hlower⟩ : ∃ body, function.lower scope false .empty = .ok body .empty := ⟨_, rfl⟩
  have hrun : (runFunction function machine).any (fun p => p.1.all Event.keepsMark) = true := by decide +kernel
  obtain ⟨m', log, m₂, hexec, hwatch, hlog⟩ := of_runFunction hlower hrun
  obtain ⟨log', hwatch', -, hmark⟩ := Function.mark_of_exec (g := setting) hlower (List.prefix_refl _) rfl rfl hexec
  cases hwatch.symm.trans hwatch'
  refine ⟨body, m', hlower, hexec, ?_⟩
  rw [hmark hlog]
  decide +kernel

/-- **A frame that the condition of a loop opens stays open when the loop is left,** and the mark stays
where the buffer in it ends, although the function is accepted. -/
theorem Tally.mark_leaky :
    ∃ body m' log, leaky.lower scope false .empty = .ok body .empty ∧ leaky.WellKinded spaces scope ∧
      leaky.body.framed 0 = true ∧ Code.exec inst 4 body.code leakyMachine = .next m' ∧
      leaky.watch setting 4 false leakyMachine = .ok (log, m') ∧ log.all Event.keepsMark = true ∧
      openFrames log 0 = some 1 ∧ leakyMachine.memory.mark = some 128 ∧ m'.memory.mark = some 136 := by
  obtain ⟨body, hlower⟩ : ∃ body, leaky.lower scope false .empty = .ok body .empty := ⟨_, rfl⟩
  have hkind : leaky.WellKinded spaces scope := by
    refine ⟨.i32, .whileLoop ?_ .popFrame, by rintro r ⟨⟩⟩
    exact .sequence .pushFrame (.sequence (.ignore (.bufCreate .literal)) (.last .literal))
  have hrun : (runFunction leaky leakyMachine).any (fun p => p.1.all Event.keepsMark &&
      (openFrames p.1 0 == some 1 && p.2.memory.mark == some 136)) = true := by decide +kernel
  obtain ⟨m', log, m₂, hexec, hwatch, hlog⟩ := of_runFunction hlower hrun
  simp only [Bool.and_eq_true, beq_iff_eq] at hlog
  have hsteps : Steps (leaky.terms setting 4 False) body.code 0 0 (leaky.watch setting 4 false) leakyMachine :=
    Function.steps_lower hlower (List.prefix_refl _) (by rintro ⟨⟩) (by rintro ⟨⟩)
  obtain ⟨log', hwatch', -⟩ := hsteps.next hexec
  cases hwatch.symm.trans hwatch'
  exact ⟨body, m', log, hlower, hkind, rfl, hexec, hwatch, hlog.1, hlog.2.1, by decide +kernel, hlog.2.2⟩

end WasmLowering
