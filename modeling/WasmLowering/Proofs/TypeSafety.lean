/-
# Typed code is safe to run

A machine holds what typed code expects when its locals have their kinds and the
words that the code may touch have theirs; the words below are out of reach.

| the run ends in  | then                                                            |
|------------------|-----------------------------------------------------------------|
| `next m`         | `m` holds the kinds that the code leaves, above the same words  |
| `branch d m`     | the topmost words of `m` are those of label `d`                 |
| `halt cause`     | `cause` is a trap or a timeout, never `stuck`                   |
-/

import WasmLowering.Proofs.CodeTyping

namespace WasmLowering
namespace Wasm

/-- The locals of a machine have some kinds, and so have its words above those that are left alone. -/
structure Machine.Holds (locals ks : List Kind) (rest : List Value) (m : Machine) : Prop where
  locals : m.locals.map Value.kind = locals
  stack : ∃ ws, m.stack = ws ++ rest ∧ ws.map Value.kind = ks

/-- How a run of typed code may end. -/
def Outcome.Safe (locals : List Kind) (labels : List (List Kind)) (leaves : List Kind)
    (rest : List Value) : Outcome → Prop
  | .next m => m.Holds locals leaves rest
  | .branch d m => m.locals.map Value.kind = locals ∧
      ∃ label, labels[d]? = some label ∧
        ∃ ws below, m.stack = ws ++ below ∧ ws.map Value.kind = label.reverse
  | .halt cause => cause ≠ .stuck

variable {spaces : IndexSpaces} {locals ks leaves : List Kind} {labels : List (List Kind)}
  {rest : List Value} {m : Machine}

namespace Outcome

/-- **Safe runs go on safely.** -/
theorem Safe.andThen {mid : List Kind} {o : Outcome} {f : Machine → Outcome}
    (h : o.Safe locals labels mid rest)
    (hf : ∀ m, m.Holds locals mid rest → (f m).Safe locals labels leaves rest) :
    (o.andThen f).Safe locals labels leaves rest := by
  cases o with
  | next m => exact hf m h
  | branch d m => exact h
  | halt cause => exact h

/-- **A block that is left** leaves its result above the words that it hid. -/
theorem Safe.leave (result : Option Kind) {ws : List Value} {o : Outcome}
    (h : o.Safe locals (result.toList :: labels) result.toList [])
    (hws : ws.map Value.kind = ks) :
    (o.leave result.toList.length (ws ++ rest)).Safe locals labels (result.toList ++ ks) rest := by
  cases o with
  | next m =>
    obtain ⟨hlocals, vs, hstack, hvs⟩ := h
    refine ⟨hlocals, vs ++ ws, ?_, by rw [List.map_append, hvs, hws]⟩
    show m.stack ++ (ws ++ rest) = _
    rw [hstack, List.append_nil, List.append_assoc]
  | branch d m =>
    obtain ⟨hlocals, label, hlabel, vs, below, hstack, hvs⟩ := h
    cases d with
    | zero =>
      -- The label is the result, one word at most, so it is its own reverse.
      obtain rfl := Option.some.inj hlabel
      have hreverse : result.toList.reverse = result.toList := by cases result <;> rfl
      rw [hreverse] at hvs
      have hlength : result.toList.length = vs.length := by rw [← hvs, List.length_map]
      refine ⟨hlocals, vs ++ ws, ?_, by rw [List.map_append, hvs, hws]⟩
      show m.stack.take result.toList.length ++ (ws ++ rest) = _
      rw [hstack, hlength, List.take_left, List.append_assoc]
    | succ d => exact ⟨hlocals, label, hlabel, vs, below, hstack, hvs⟩
  | halt cause => exact h

/-- **A loop is safe if its rounds are.** -/
theorem Safe.iterate {body : Machine → Outcome} {ws : List Value} (hws : ws.map Value.kind = ks)
    (hbody : ∀ m : Machine, m.Holds locals [] [] → (body m).Safe locals ([] :: labels) [] [])
    (fuel : Nat) (hlocals : m.locals.map Value.kind = locals) :
    (Outcome.iterate body (ws ++ rest) fuel m).Safe locals labels ks rest := by
  induction fuel generalizing m with
  | zero => exact fun h => nomatch h
  | succ fuel ih =>
    have hround := hbody { m with stack := [] } ⟨hlocals, [], rfl, rfl⟩
    have hleave : ((body { m with stack := [] }).leave 0 (ws ++ rest)).Safe locals labels ks rest :=
      Safe.leave none hround hws
    rw [Outcome.iterate]
    split
    · rename_i m' hbranch
      rw [hbranch] at hround
      exact ih hround.1
    · exact hleave

end Outcome

/-- **An instruction on words is safe** on words of its kinds. -/
theorem Plain.safe_words {p : Plain} {globals : List Value} (h : p.onKinds ks = some leaves)
    (hm : m.Holds locals ks rest) :
    (Outcome.ofExcept (p.step globals m)).Safe locals labels leaves rest := by
  obtain ⟨hlocals, ws, hstack, rfl⟩ := hm
  have hdelivers := Plain.delivers_onWords h
  have hne : p.onWords ws ≠ .error .stuck := by
    rintro hstuck
    rcases hdelivers with htrap | ⟨_, hok, -⟩
    · exact nomatch hstuck.symm.trans htrap
    · exact nomatch hstuck.symm.trans hok
  have happend := Plain.onWords_append rest hne
  rw [← hstack] at happend
  have hne' : p.onWords m.stack ≠ .error .stuck := by
    rw [happend]
    rcases hdelivers with htrap | ⟨_, hok, -⟩
    · rw [htrap]
      exact nofun
    · rw [hok]
      exact nofun
  rw [Plain.step_onWords hne', happend]
  rcases hdelivers with htrap | ⟨ws', hok, hkinds⟩
  · rw [htrap]
    exact fun h => nomatch h
  · rw [hok]
    exact ⟨hlocals, ws', rfl, hkinds⟩

/-- **The local that is read or written** is there, with a word of its kind. -/
theorem Machine.Holds.getElem?_locals (hm : m.Holds locals ks rest) {i : Nat} {k : Kind}
    (h : locals[i]? = some k) : ∃ v, m.locals[i]? = some v ∧ v.kind = k := by
  rw [← hm.locals, List.getElem?_map] at h
  exact Option.map_eq_some_iff.1 h

theorem Machine.Holds.lt_locals (hm : m.Holds locals ks rest) {i : Nat} {k : Kind}
    (h : locals[i]? = some k) : i < m.locals.length := by
  obtain ⟨_, hv, -⟩ := hm.getElem?_locals h
  exact (List.getElem?_eq_some_iff.1 hv).1

/-- **The topmost word** is there, of its kind. -/
theorem Machine.Holds.top {k : Kind} (hm : m.Holds locals (k :: ks) rest) :
    ∃ v ws, m.stack = v :: (ws ++ rest) ∧ v.kind = k ∧ ws.map Value.kind = ks := by
  obtain ⟨-, ws, hstack, hws⟩ := hm
  cases ws with
  | nil => cases hws
  | cons v ws =>
    obtain ⟨hv, hws⟩ := List.cons.inj hws
    exact ⟨v, ws, hstack, hv, hws⟩

/-- **A word of kind `i32`** is one of the 32 bits. -/
theorem eq_i32_of_kind {v : Value} (h : v.kind = .i32) : ∃ w, v = .i32 w := by
  cases v with
  | i32 w => exact ⟨w, rfl⟩
  | i64 w => cases h

/-- **A local is set to a word of its kind.** -/
theorem Machine.Holds.map_set (hm : m.Holds locals ks rest) {i : Nat} {v : Value}
    (h : locals[i]? = some v.kind) : (m.locals.set i v).map Value.kind = locals := by
  obtain ⟨_, hv⟩ := List.getElem?_eq_some_iff.1 h
  rw [List.map_set, hm.locals, ← hv, List.set_getElem_self]

/-- **A call is safe** on words of its parameters. -/
theorem Machine.safe_call (inst : Instance spaces) {i : Nat} {t : FuncType}
    (ht : spaces.functions[i]? = some t) (hm : m.Holds locals (t.params.reverse ++ ks) rest) :
    (Outcome.ofExcept (m.call inst i)).Safe locals labels (t.results.reverse ++ ks) rest := by
  obtain ⟨hlocals, ws, hstack, hws⟩ := hm
  obtain ⟨args, below, rfl, hargs, hbelow⟩ := List.map_eq_append_iff.1 hws
  have hlength : t.params.length = args.reverse.length := by
    rw [List.length_reverse, ← List.length_map Value.kind, hargs, List.length_reverse]
  have hm : m.stack = args.reverse.reverse ++ (below ++ rest) := by
    rw [List.reverse_reverse, hstack, List.append_assoc]
  rw [Machine.call_eq inst ht hlength hm]
  cases hcall : inst.call i args.reverse m.memory with
  | error cause =>
    rintro rfl
    exact inst.call_ne_stuck _ _ _ hcall
  | ok p =>
    refine ⟨hlocals, p.1.reverse ++ below, (List.append_assoc ..).symm, ?_⟩
    rw [List.map_append, List.map_reverse, inst.kind_call ht hcall, hbelow]

/-- **A load is safe** on an address. -/
theorem Plain.safe_load {globals : List Value} {op : LoadOp} {arg : MemArg}
    (hm : m.Holds locals (.i32 :: ks) rest) :
    (Outcome.ofExcept ((Plain.load op arg).step globals m)).Safe locals labels (op.kind :: ks) rest := by
  obtain ⟨v, ws, hstack, hv, hws⟩ := hm.top
  obtain ⟨a, rfl⟩ := eq_i32_of_kind hv
  rw [Plain.step_load hstack]
  cases m.memory.load op.size (a.toNat + arg.offset) with
  | none => exact fun h => nomatch h
  | some n =>
    refine ⟨hm.locals, .ofNat op.kind n :: ws, rfl, ?_⟩
    rw [List.map_cons, Value.kind_ofNat, hws]

/-- **A store is safe** on an address below a word of its kind. -/
theorem Plain.safe_store {globals : List Value} {op : StoreOp} {arg : MemArg}
    (hm : m.Holds locals (op.kind :: .i32 :: ks) rest) :
    (Outcome.ofExcept ((Plain.store op arg).step globals m)).Safe locals labels ks rest := by
  obtain ⟨v, ws, hstack, hv, hws⟩ := hm.top
  cases ws with
  | nil => cases hws
  | cons u ws =>
    obtain ⟨hu, hbelow⟩ := List.cons.inj hws
    obtain ⟨a, rfl⟩ := eq_i32_of_kind hu
    rw [Plain.step_store hstack hv]
    cases m.memory.store op.size (a.toNat + arg.offset) v.toNat with
    | none => exact fun h => nomatch h
    | some memory => exact ⟨hm.locals, ws, rfl, hbelow⟩

mutual

/-- **A typed instruction is safe.** -/
theorem Instr.HasType.safe (inst : Instance spaces) (fuel : Nat) :
    ∀ {labels : List (List Kind)} {i : Instr} {takes leaves : List Kind} {rest : List Value} {m : Machine},
      Instr.HasType spaces locals labels i takes leaves → m.Holds locals takes rest →
      (i.exec inst fuel m).Safe locals labels leaves rest
  | _, _, _, _, _, _, .words h, hm => by
    rw [Instr.exec]
    exact Plain.safe_words h hm
  | _, _, _, _, _, _, .localGet h, hm => by
    obtain ⟨v, hv, rfl⟩ := hm.getElem?_locals h
    obtain ⟨hlocals, ws, hstack, rfl⟩ := hm
    rw [Instr.exec, Plain.step_localGet hv, hstack]
    exact ⟨hlocals, v :: ws, rfl, rfl⟩
  | _, _, _, _, _, _, .localSet h, hm => by
    obtain ⟨v, ws, hstack, rfl, hws⟩ := hm.top
    rw [Instr.exec, Plain.step_localSet hstack (hm.lt_locals h)]
    exact ⟨hm.map_set h, ws, rfl, hws⟩
  | _, _, _, _, _, _, .localTee h, hm => by
    obtain ⟨v, ws, hstack, rfl, hws⟩ := hm.top
    rw [Instr.exec, Plain.step, hstack]
    simp only [if_pos (hm.lt_locals h)]
    exact ⟨hm.map_set h, v :: ws, rfl, by rw [List.map_cons, hws]⟩
  | _, _, _, _, _, _, .globalGet h, hm => by
    rw [← inst.kind_globals, List.getElem?_map] at h
    obtain ⟨v, hv, rfl⟩ := Option.map_eq_some_iff.1 h
    obtain ⟨hlocals, ws, hstack, rfl⟩ := hm
    rw [Instr.exec, Plain.step_globalGet hv, hstack]
    exact ⟨hlocals, v :: ws, rfl, rfl⟩
  | _, _, _, _, _, _, .load _, hm => by
    rw [Instr.exec]
    exact Plain.safe_load hm
  | _, _, _, _, _, _, .store _, hm => by
    rw [Instr.exec]
    exact Plain.safe_store hm
  | _, _, _, _, _, _, .call ht, hm => by
    rw [Instr.exec]
    exact Machine.safe_call inst ht hm
  | _, _, _, _, _, _, .br h, hm => by
    obtain ⟨hlocals, ws, hstack, hws⟩ := hm
    obtain ⟨vs, below, rfl, hvs, -⟩ := List.map_eq_append_iff.1 hws
    rw [Instr.exec]
    exact ⟨hlocals, _, h, vs, below ++ _, by rw [hstack, List.append_assoc], hvs⟩
  | _, _, _, _, _, _, .cond hfirst hsecond, hm => by
    obtain ⟨v, ws, hstack, hv, hws⟩ := hm.top
    obtain ⟨c, rfl⟩ := eq_i32_of_kind hv
    rw [Instr.exec_cond inst hstack]
    refine Outcome.Safe.leave _ ?_ hws
    split
    · exact hsecond.safe inst fuel ⟨hm.locals, [], rfl, rfl⟩
    · exact hfirst.safe inst fuel ⟨hm.locals, [], rfl, rfl⟩
  | _, _, _, _, _, _, .loop hbody, hm => by
    obtain ⟨hlocals, ws, hstack, hws⟩ := hm
    rw [Instr.exec, hstack]
    exact Outcome.Safe.iterate hws (fun m hm => hbody.safe inst fuel hm) fuel hlocals

/-- **Typed code is safe.**  It is never stuck, and it leaves words of its kinds above those that it was not
given. -/
theorem Code.HasType.safe (inst : Instance spaces) (fuel : Nat) :
    ∀ {labels : List (List Kind)} {code : Code} {takes leaves : List Kind} {rest : List Value} {m : Machine},
      Code.HasType spaces locals labels code takes leaves → m.Holds locals takes rest →
      (Code.exec inst fuel code m).Safe locals labels leaves rest
  | _, _, _, _, _, _, .nil, hm => hm
  | _, _, _, _, _, _, .cons hi his, hm => by
    rw [Code.exec]
    exact (hi.safe inst fuel hm).andThen fun m hm => his.safe inst fuel hm

end

end Wasm

open Wasm

/-- **A well-kinded expression leaves one word of its kind,** right above the words that were there. -/
theorem Lowers.stack_of_exec {spaces : IndexSpaces} {scope : Scope} {frame : Frame} {vars locals : List Kind}
    {slots fuel : Nat} {st st' : LowerState} {e : Expr} {code : Code} {k : Kind} {m m' : Machine}
    (inst : Instance spaces) (hfit : spaces.Fit scope) (hl : frame.Kinds vars slots locals)
    (h : Lowers scope frame st e code st') (hk : HasKind spaces scope vars e k)
    (hd : st.depth ≤ st.slots) (hs : st'.slots ≤ slots) (hm : m.locals.map Value.kind = locals)
    (hrun : Code.exec inst fuel code m = .next m') :
    m'.locals.map Value.kind = locals ∧ ∃ v : Value, v.kind = k ∧ m'.stack = v :: m.stack := by
  have hsafe := (h.hasType hfit hl hk hd hs [] []).safe inst fuel ⟨hm, [], rfl, rfl⟩
  rw [hrun] at hsafe
  obtain ⟨v, ws, hstack, hv, hws⟩ := Machine.Holds.top hsafe
  obtain rfl := List.map_eq_nil_iff.1 hws
  exact ⟨hsafe.locals, v, hv, hstack⟩

end WasmLowering
