/-
# Narrow words keep zeros above their bits

A word represents a number at a width below 32 bits if the bits above the width
are zero; a truth value is `0` or `1`.  In a width-typed program that is so of
every value that the code of an expression leaves, in every run that starts with
arguments in representation:

| a value                  | is in representation because                              |
|--------------------------|-----------------------------------------------------------|
| of an operator, a cast   | it is cut to its width                                    |
| of a comparison          | it is `0` or `1`                                          |
| of a local               | what is assigned is, and locals start as zeros            |
| of a global              | its initializer is, or the global that it copies          |
| of a buffer              | narrow elements are read with zeros above them            |
| of a call                | the function that is called leaves results that are       |

Bounds are kept by each step from one point of a run to the next
(`Loading.Step.bounded`), hence by whole runs, calls included.
-/

import WasmLowering.Proofs.DeclaredWidths

namespace WasmLowering

open Wasm

/-- A word represents a number at a width: at a width below 32 bits the bits above it are zero, and a truth
value is `0` or `1`. -/
def Value.Represents (v : Value) (w : Width) : Prop :=
  (w.bits < 32 → ∀ i, w.bits ≤ i → v.toNat.testBit i = false) ∧ (w = .bool → v.toNat = 0 ∨ v.toNat = 1)

/-- **To represent a number at a width** is to be below its bound. -/
theorem Value.represents_iff {v : Value} {w : Width} : v.Represents w ↔ v.Below w.bound := by
  have hmodulus : w.modulus = Nat.pow 2 w.bits := w.modulus_eq
  unfold Represents Width.bound
  constructor
  · rintro ⟨hbits, -⟩
    split
    · rename_i hnarrow
      rintro _ ⟨⟩
      rw [hmodulus]
      exact Nat.lt_pow_two_of_testBit _ (hbits hnarrow)
    · exact v.below_none
  · intro hv
    constructor
    · intro hnarrow i hi
      rw [if_pos hnarrow] at hv
      have hlt := hv _ rfl
      rw [hmodulus] at hlt
      exact Nat.testBit_lt_two_pow (Nat.lt_of_lt_of_le hlt (Nat.pow_le_pow_right (by decide) hi))
    · rintro rfl
      have hlt : v.toNat < 2 := hv 2 rfl
      omega

/-- **Words represent numbers at some widths** if they are below the bounds. -/
theorem Value.forall₂_represents {vs : List Value} {ws : List Width} :
    List.Forall₂ Value.Represents vs ws ↔ List.Forall₂ Value.Below vs (ws.map Width.bound) := by
  rw [List.forall₂_map_right_iff]
  exact ⟨fun h => h.imp fun _ _ => represents_iff.1, fun h => h.imp fun _ _ => represents_iff.2⟩

/-! ## Calls -/

/-- **A zero is below the bound of every local.** -/
theorem Frame.below_zero (f : Frame) (vars : List Width) (j : Nat) {v : Value} (hv : v.toNat = 0) :
    v.Below (f.bound vars j) := by
  have hwidth (x : Option Width) : v.Below (x.elim none Width.bound) := by
    rcases x with _ | w
    · exact v.below_none
    · exact Width.below_bound (hv ▸ w.modulus_pos)
  unfold bound
  split
  · exact hwidth _
  · split
    · exact v.below_none
    · exact hwidth _

/-- **A function starts within bounds** on arguments within bounds. -/
theorem Routine.bounded_enter (r : Routine) {f : Function} {args : List Value}
    (hargs : List.Forall₂ Value.Below args (f.args.map Width.bound)) (memory : Memory) :
    (r.enter args memory).Bounded f.bound [] [] := by
  refine ⟨fun j v hv => ?_, [], rfl, .nil⟩
  have hlength : args.length = f.args.length := by rw [hargs.length_eq, List.length_map]
  rcases Nat.lt_or_ge j args.length with hj | hj
  · have harg : args[j]? = some v := (List.getElem?_append_left hj).symm.trans hv
    have hj' : j < f.args.length := hlength ▸ hj
    have hindex : f.frame.localIndex j = .ok j := if_pos hj'
    have hvar : (f.args ++ f.locals)[j]? = some f.args[j] := by
      rw [List.getElem?_append_left hj', List.getElem?_eq_getElem hj']
    have hbound : f.bound j = f.args[j].bound := Frame.bound_localIndex hindex hvar
    refine forall₂_getElem? hargs harg ?_
    rw [List.getElem?_map, List.getElem?_eq_getElem hj', hbound, Option.map_some]
  · have hzero : (r.body.locals.map (Value.ofNat · 0))[j - args.length]? = some v :=
      (List.getElem?_append_right hj).symm.trans hv
    obtain ⟨k, -, rfl⟩ := List.mem_map.1 (List.mem_of_getElem? hzero)
    exact Frame.below_zero _ _ j (by simp)

section Linked

variable {config : Config} {units : List SourceUnit} {p : Program}

/-- **The code of a function of a program leaves its results.** -/
theorem Routine.IsOf.hasBounds {r : Routine} {f : Function} (hr : r.IsOf config units f)
    (h : link config units = .ok p) (ht : Link.WidthTyped config.minPages units) (labels : List (List Bound)) :
    Code.HasBounds (.ofUnits (units.take (r.home + 1))) f.bound labels r.body.code []
      (f.results.map Width.bound).reverse := by
  obtain ⟨u, scope, seg, seg', hu, hs, hf, hlower⟩ := hr
  have hfits := (linked_of_link h r.home).fits hs
  rw [← take_add_one_of_unit hu] at hfits
  exact Function.hasBounds_lower hfits ((ht r.home u scope hu hs).functions f hf) hlower labels

/-- **The functions that a module may call** have the types of their widths. -/
theorem spaces_functions (h : link config units = .ok p) {k : Nat} {u : SourceUnit} (hu : units[k]? = some u) :
    (p.spaces k).functions = (Declared.ofUnits (units.take (k + 1))).functions.map FuncWidths.type := by
  have hk : k < p.modules.length := (assemble_of_link h).1 ▸ (List.getElem?_eq_some_iff.1 hu).1
  have ha := List.getElem?_eq_getElem hk
  have hassemble := (assemble_of_link h).2 k u _ hu ha
  obtain ⟨scope, _, _, _, _, hs, -, -, -, -, -⟩ := assemble_eq_ok hassemble
  have hal := (linked_of_link h k).aligned
  have hspaces := (isModuleOf_assemble hal hs hassemble).spaces
  rw [Program.spaces, ha, Option.elim_some, hspaces, ← offers_type, take_add_one_of_unit hu]
  show _ ++ _ = _
  rw [hal.types]
  simp [offers, SourceUnit.offers, Function.comp_def]

/-- **What is declared early is declared later** as well. -/
theorem Declared.functions_take {k i : Nat} {s : FuncWidths}
    (h : (Declared.ofUnits (units.take k)).functions[i]? = some s) :
    (Declared.ofUnits units).functions[i]? = some s := by
  have hmore := Declared.functions_append (units.take k) (units.drop k)
  rw [List.take_append_drop] at hmore
  rw [hmore, List.getElem?_append_left (List.getElem?_eq_some_iff.1 h).1, h]

/-- **Behind the hook** the functions of the units are declared. -/
theorem Declared.function_eq_some {i : Nat} {s : FuncWidths} :
    (Declared.ofUnits units).functions[i + 1]? = some s ↔
      ∃ f, (units.flatMap SourceUnit.functions)[i]? = some f ∧ f.widths = s := by
  rw [Declared.ofUnits, List.getElem?_cons_succ, List.getElem?_map, Option.map_eq_some_iff]

namespace Loading

variable (L : Loading p)

/-- A way to call functions leaves results at their widths if it is given arguments at theirs. -/
def KeepsWidths (units : List SourceUnit)
    (call : Nat → List Value → Memory → Except Halt (List Value × Memory)) : Prop :=
  ∀ (i : Nat) (s : FuncWidths) (args results : List Value) (before after : Memory),
    (Declared.ofUnits units).functions[i]? = some s →
    List.Forall₂ Value.Below args (s.params.map Width.bound) → call i args before = .ok (results, after) →
    List.Forall₂ Value.Below results (s.results.map Width.bound)

/-- **The instance of a module keeps what is declared** if calls do. -/
theorem keeps_instanceOf (h : link config units = .ok p) (ht : Link.WidthTyped config.minPages units)
    {call : Nat → List Value → Memory → Except Halt (List Value × Memory)} (hcall : KeepsWidths units call)
    {k : Nat} {u : SourceUnit} (hu : units[k]? = some u) :
    (L.instanceOf k call).Keeps (.ofUnits (units.take (k + 1))) where
  arity {i t s} hi hs := by
    rw [spaces_functions h hu, List.getElem?_map, hs, Option.map_some] at hi
    cases hi
    exact List.length_map ..
  globals {i v w} hv hw := by
    refine forall₂_getElem? (Link.below_globals h ht L.start hu) hv ?_
    have hi := (List.getElem?_eq_some_iff.1 hw).1
    rw [List.getElem?_append_left (by rwa [List.length_map]), List.getElem?_map, hw, Option.map_some]
  call hs hargs hresults := hcall _ _ _ _ _ _ (Declared.functions_take hs) hargs (settle_eq_ok hresults).1

/-- **Code of a function stays within bounds** if calls do. -/
theorem bounded_exec (h : link config units = .ok p) (ht : Link.WidthTyped config.minPages units) {fuel : Nat}
    (hcall : KeepsWidths units (L.call fuel)) {r : Routine} {f : Function} (hr : r.IsOf config units f)
    {labels : List (List Bound)} {code : Code} {takes leaves : List Bound} {rest : List Value} {m : Machine}
    (hcode : Code.HasBounds (.ofUnits (units.take (r.home + 1))) f.bound labels code takes leaves)
    (hm : m.Bounded f.bound takes rest) : (L.exec fuel r code m).Bounded f.bound labels leaves rest := by
  obtain ⟨u, _, _, _, hu, -⟩ := hr
  exact hcode.keeps (L.keeps_instanceOf h ht hcall hu) fuel hm

/-- **Calls leave results at their widths,** by induction on how deep they may go. -/
theorem keepsWidths_call (h : link config units = .ok p) (ht : Link.WidthTyped config.minPages units)
    (fuel : Nat) : KeepsWidths units (L.call fuel) := by
  induction fuel with
  | zero =>
    intro i s args results before after _ _ hcall
    cases hcall
  | succ fuel ih =>
    intro i s args results before after hs hargs hcall
    rcases i with _ | i
    · obtain ⟨_, -, hresults⟩ := ok_of_map hcall
      cases hs
      cases hresults
      exact .nil
    · obtain ⟨f, hf, rfl⟩ := Declared.function_eq_some.1 hs
      rw [Loading.call] at hcall
      split at hcall
      · cases hcall
      · rename_i r hr
        have hof := forall₂_getElem? (Link.routines_declared h) hr hf
        have hrun := L.bounded_exec h ht ih hof (hof.hasBounds h ht []) (r.bounded_enter hargs before)
        unfold Loading.exec at hrun
        split at hcall
        · rename_i m hm
          rw [hm] at hrun
          cases hcall
          obtain ⟨-, ws, hstack, hws⟩ := hrun
          rw [hstack, List.append_nil]
          exact List.forall₂_reverse_iff.1 (by rwa [List.reverse_reverse])
        · cases hcall
        · cases hcall

end Loading

/-! ## Points of a run -/

/-- At a point of a run the locals are below their bounds, and so are the words that the code takes which is
left. -/
def Point.Bounded (p : Program) (units : List SourceUnit) (pt : Point) : Prop :=
  ∃ r f labels takes leaves, p.routines[pt.routine]? = some r ∧
    (units.flatMap SourceUnit.functions)[pt.routine]? = some f ∧
    Code.HasBounds (.ofUnits (units.take (r.home + 1))) f.bound labels pt.code takes leaves ∧
    pt.machine.Bounded f.bound takes []

namespace Loading

variable {L : Loading p}

/-- **A function that is called starts within bounds.** -/
theorem bounded_start (h : link config units = .ok p) (ht : Link.WidthTyped config.minPages units) {i : Nat}
    {r : Routine} {f : Function} (hr : p.routines[i]? = some r)
    (hf : (units.flatMap SourceUnit.functions)[i]? = some f) {args : List Value}
    (hargs : List.Forall₂ Value.Below args (f.args.map Width.bound)) (fuel : Nat) (memory : Memory) :
    Point.Bounded p units ⟨fuel, i, r.body.code, r.enter args memory⟩ :=
  ⟨r, f, [], [], _, hr, hf, (forall₂_getElem? (Link.routines_declared h) hr hf).hasBounds h ht [],
    r.bounded_enter hargs memory⟩

/-- **A step of a run keeps bounds.** -/
theorem Step.bounded (h : link config units = .ok p) (ht : Link.WidthTyped config.minPages units)
    {pt pt' : Point} (hstep : L.Step pt pt') (hpt : pt.Bounded p units) : pt'.Bounded p units := by
  obtain ⟨r, f, labels, takes, leaves, hr, hf, hcode, hm⟩ := hpt
  have hof := forall₂_getElem? (Link.routines_declared h) hr hf
  cases hstep with
  | @run fuel i r' first rest m m' hr' hexec =>
    obtain rfl := Option.some.inj (hr.symm.trans hr')
    obtain ⟨mid, hfirst, hrest⟩ := hcode.split rfl
    have hrun := L.bounded_exec h ht (L.keepsWidths_call h ht fuel) hof hfirst hm
    rw [hexec] at hrun
    exact ⟨r, f, labels, mid, leaves, hr, hf, hrest, hrun⟩
  | arm hstack =>
    obtain ⟨results, hfirst, hsecond⟩ := hcode.arms
    refine ⟨r, f, results :: labels, [], results, hr, hf, ?_, hm.locals, [], rfl, .nil⟩
    split
    · exact hsecond
    · exact hfirst
  | enter => exact ⟨r, f, [] :: labels, [], [], hr, hf, hcode.body, hm.locals, [], rfl, .nil⟩
  | @again fuel i r' body rest m m' hr' hexec =>
    obtain rfl := Option.some.inj (hr.symm.trans hr')
    have hround : Machine.Bounded f.bound [] [] { m with stack := [] } := ⟨hm.locals, [], rfl, .nil⟩
    have hrun := L.bounded_exec h ht (L.keepsWidths_call h ht fuel) hof hcode.body hround
    rw [hexec] at hrun
    obtain ⟨_, -, _, hback⟩ := hrun
    exact ⟨r, f, labels, takes, leaves, hr, hf, hcode, hback.locals, hm.stack⟩
  | @call fuel i j r' callee t rest m args ws hr' htype hlength hstack hcallee =>
    obtain rfl := Option.some.inj (hr.symm.trans hr')
    obtain ⟨s, bs, hs, htakes⟩ := hcode.callee
    obtain ⟨u, _, _, _, hu, -⟩ := hof
    obtain ⟨g, hg, rfl⟩ := Declared.function_eq_some.1 (Declared.functions_take hs)
    have harity : args.length = (g.args.map Width.bound).length := by
      rw [spaces_functions h hu, List.getElem?_map, hs, Option.map_some] at htype
      cases htype
      rw [← hlength, FuncWidths.type, List.length_map, List.length_map]
      rfl
    exact bounded_start h ht hcallee hg ((htakes m [] hm).args harity hstack) fuel m.memory

/-- **A run keeps bounds.** -/
theorem Reaches.bounded (h : link config units = .ok p) (ht : Link.WidthTyped config.minPages units)
    {pt pt' : Point} (hreaches : L.Reaches pt pt') (hpt : pt.Bounded p units) : pt'.Bounded p units := by
  induction hreaches with
  | refl => exact hpt
  | tail _ hstep ih => exact hstep.bounded h ht ih

/-- At a point of a run the code of an expression stands first, typed by a width, and is run to its end. -/
inductive Evaluates (L : Loading p) (config : Config) (units : List SourceUnit) :
    Point → Expr → Width → Machine → Prop
  | intro {fuel i : Nat} {r : Routine} {f : Function} {u : SourceUnit} {scope : Scope} {st st' : LowerState}
      {e : Expr} {w : Width} {code rest : Code} {m m' : Machine} :
    p.routines[i]? = some r → (units.flatMap SourceUnit.functions)[i]? = some f → units[r.home]? = some u →
      Scope.ofUnit (.after config.minPages (units.take r.home)) u = .ok scope →
      Lowers scope f.frame st e code st' →
      HasWidth (.ofUnits (units.take (r.home + 1))) scope (f.args ++ f.locals) e w →
      L.exec fuel r code m = .next m' → Evaluates L config units ⟨fuel, i, code ++ rest, m⟩ e w m'

/-- **What an expression leaves at a point within bounds** is one word, at its width. -/
theorem Evaluates.represents (h : link config units = .ok p) (ht : Link.WidthTyped config.minPages units)
    {pt : Point} (hpt : pt.Bounded p units) {e : Expr} {w : Width} {m' : Machine}
    (he : Evaluates L config units pt e w m') :
    ∃ v, m'.stack = v :: pt.machine.stack ∧ v.Represents w := by
  obtain @⟨fuel, i, r, f, u, scope, st, st', _, _, code, rest, m, _, hr, hf, hu, hs, hlower, hw, hexec⟩ := he
  obtain ⟨_, _, _, _, _, hr', hf', -, hm⟩ := hpt
  obtain rfl := Option.some.inj (hr.symm.trans hr')
  obtain rfl := Option.some.inj (hf.symm.trans hf')
  have hfits := (linked_of_link h r.home).fits hs
  rw [← take_add_one_of_unit hu] at hfits
  have hof := forall₂_getElem? (Link.routines_declared h) hr hf
  have hcode := hlower.hasBounds hfits List.length_append hw [] []
  have hrun := L.bounded_exec h ht (L.keepsWidths_call h ht fuel) hof hcode ⟨hm.locals, [], rfl, .nil⟩
  rw [hexec] at hrun
  obtain ⟨v, ws, hstack, hv, hws⟩ := Machine.Bounded.top hrun
  cases hws
  exact ⟨v, hstack, Value.represents_iff.2 hv⟩

end Loading

/-- **Masked representation is an invariant of runs.**  A function of a width-typed program that is linked and
loaded is called with arguments in representation.  If the call returns, its results are in representation.
Whatever point the run comes to, in whichever function, what the code of an expression leaves there is one
word, in representation at the width of the expression. -/
theorem Link.masked_representation (h : link config units = .ok p)
    (ht : Link.WidthTyped config.minPages units) (L : Loading p) {i : Nat} {f : Function} {args : List Value}
    (hf : (units.flatMap SourceUnit.functions)[i]? = some f)
    (hargs : List.Forall₂ Value.Represents args f.args) (fuel : Nat) (memory : Memory) :
    (∀ (results : List Value) (after : Memory), L.call (fuel + 1) (i + 1) args memory = .ok (results, after) →
      List.Forall₂ Value.Represents results f.results) ∧
    ∃ r, p.routines[i]? = some r ∧ ∀ (pt : Point) (e : Expr) (w : Width) (m' : Machine),
      L.Reaches ⟨fuel, i, r.body.code, r.enter args memory⟩ pt → L.Evaluates config units pt e w m' →
      ∃ v, m'.stack = v :: pt.machine.stack ∧ v.Represents w := by
  have hbelow := Value.forall₂_represents.1 hargs
  constructor
  · intro results after hcall
    have hs := Declared.function_eq_some.2 ⟨f, hf, rfl⟩
    exact Value.forall₂_represents.2 (L.keepsWidths_call h ht (fuel + 1) _ _ _ _ _ _ hs hbelow hcall)
  · have hlength := (Link.routines_declared h).length_eq
    have hi : i < p.routines.length := hlength ▸ (List.getElem?_eq_some_iff.1 hf).1
    have hr := List.getElem?_eq_getElem hi
    refine ⟨p.routines[i], hr, fun pt e w m' hreaches he => ?_⟩
    exact he.represents h ht (hreaches.bounded h ht (Loading.bounded_start h ht hr hf hbelow fuel memory))

end Linked

namespace Tally

/-- A unit with a limit of one byte, and a function that adds it. -/
def limiter : SourceUnit where
  name := "limiter"
  decls := [
    .global { name := "limit", isPublic := true, width := .u8, init := .literal .u8 "200" },
    .function
      { name := "limited", isPublic := true, args := [.u8], locals := [], results := [.u8]
        body := .binary .add .u8 (.var 0) (.global "limit") }]

/-- A unit that doubles what the function gives. -/
def doubler : SourceUnit where
  name := "doubler"
  decls := [
    .function
      { name := "doubled", isPublic := true, args := [.u8], locals := [.u8], results := [.u8]
        body := .sequence [.assign 1 (.call "limited" [.var 0]), .binary .add .u8 (.var 1) (.var 1)] }]

theorem widthTyped_doubler : Link.WidthTyped 16 [limiter, doubler] := by
  intro k u scope hu hs
  rcases k with _ | _ | k
  · cases hu
    cases hs
    refine ⟨List.forall_mem_singleton.2 ?_, List.forall_mem_singleton.2 .literal⟩
    exact ⟨.u8, .binary (.var rfl) (.global rfl rfl), by rintro _ ⟨⟩; rfl⟩
  · cases hu
    cases hs
    refine ⟨List.forall_mem_singleton.2 ?_, List.forall_mem_nil _⟩
    refine ⟨.u8, .sequence (?_ : HasWidth _ _ _ _ .u8) (.last (.binary (.var rfl) (.var rfl))), ?_⟩
    · exact .assign rfl (.call rfl rfl (.cons (.var rfl) .nil) rfl)
    · rintro _ ⟨⟩
      rfl
  · cases hu

/-- The two units, linked. -/
def doubling : Program := (link { validated := false } [limiter, doubler]).toOption.getD ⟨[]⟩

/-- The program in memory, with a hook that does nothing. -/
def doublingLoaded : Loading doubling where
  start _ := 128
  hook := .ok
  kinds
    | 0 => rfl
    | 1 => rfl
    | _ + 2 => rfl

theorem link_doubling : link { validated := false } [limiter, doubler] = .ok doubling := rfl

/-- The function that adds the limit. -/
def limited : Routine :=
  ⟨0, [.i32, .i32, .i64], [.localGet 0, .globalGet 1, .arith .i32 .add, .constI32 255, .arith .i32 .and]⟩

/-- The function that doubles. -/
def doubled : Routine :=
  ⟨1, [.i32, .i32, .i64, .i32],
    [.localGet 0, .call 1, .localSet 4, .unit, .drop,
      .localGet 4, .localGet 4, .arith .i32 .add, .constI32 255, .arith .i32 .and]⟩

/-- **A run of the doubling function** comes to the other one. -/
theorem reaches_limited (memory : Memory) :
    doublingLoaded.Reaches ⟨2, 1, doubled.body.code, doubled.enter [.i32 100] memory⟩
      ⟨1, 0, limited.body.code, limited.enter [.i32 100] memory⟩ := by
  have hargument : doublingLoaded.exec 2 doubled [.localGet 0] (doubled.enter [.i32 100] memory) =
      .next { doubled.enter [.i32 100] memory with stack := [.i32 100] } :=
    Code.exec_plain _ (Plain.step_localGet rfl) []
  have hrun : doublingLoaded.Step ⟨2, 1, doubled.body.code, doubled.enter [.i32 100] memory⟩
      ⟨2, 1, doubled.body.code.tail, { doubled.enter [.i32 100] memory with stack := [.i32 100] }⟩ :=
    .run (r := doubled) rfl hargument
  have hcall : doublingLoaded.Step
      ⟨2, 1, doubled.body.code.tail, { doubled.enter [.i32 100] memory with stack := [.i32 100] }⟩
      ⟨1, 0, limited.body.code, limited.enter [.i32 100] memory⟩ :=
    .call (r := doubled) (t := ⟨[.i32], [.i32]⟩) rfl rfl rfl rfl rfl
  exact .tail (.single hrun) hcall

/-- **The sum there** is above a byte before it is cut. -/
theorem evaluates_limited (memory : Memory) :
    ∃ m, doublingLoaded.Evaluates { validated := false } [limiter, doubler]
      ⟨1, 0, limited.body.code, limited.enter [.i32 100] memory⟩
      (.binary .add .u8 (.var 0) (.global "limit")) .u8 m ∧ m.stack = [.i32 44] := by
  have hlimit : (doublingLoaded.instanceOf 0 (doublingLoaded.call 1)).globals[1]? = some (.i32 200) := by
    decide +kernel
  have hsum : doublingLoaded.exec 1 limited limited.body.code (limited.enter [.i32 100] memory) =
      .next { limited.enter [.i32 100] memory with stack := [.i32 44] } := by
    refine (Code.exec_plain _ (Plain.step_localGet rfl) _).trans ?_
    exact (Code.exec_plain _ (Plain.step_globalGet hlimit) _).trans rfl
  obtain ⟨scope, hs, hindex⟩ : ∃ scope, Scope.ofUnit (.base 16) limiter = .ok scope ∧
      scope.global? "limit" = some 1 := ⟨_, rfl, rfl⟩
  have hlower : Lowers scope ⟨1, 0⟩ (.start .empty) (.binary .add .u8 (.var 0) (.global "limit"))
      limited.body.code (.start .empty) :=
    .binary (.var rfl) (.global (Scope.global_eq_ok.2 hindex)) rfl
  have hwidth : HasWidth (.ofUnits [limiter]) scope [.u8] (.binary .add .u8 (.var 0) (.global "limit")) .u8 :=
    .binary (.var rfl) (.global hindex rfl)
  have hpoint : doublingLoaded.Evaluates { validated := false } [limiter, doubler]
      ⟨1, 0, limited.body.code ++ [], limited.enter [.i32 100] memory⟩
      (.binary .add .u8 (.var 0) (.global "limit")) .u8 _ :=
    .intro (r := limited) rfl rfl rfl hs hlower hwidth hsum
  exact ⟨_, hpoint, rfl⟩

/-- **A sum above a byte is cut** where it is made, in the one module, and again in the other: `100` and the
limit `200` give `44`, which is doubled to `88`. -/
theorem masked_representation_doubler :
    ∃ (results : List Value) (after : Memory) (m : Machine),
      link { validated := false } [limiter, doubler] = .ok doubling ∧
      Link.WidthTyped 16 [limiter, doubler] ∧ List.Forall₂ Value.Represents [.i32 100] [.u8] ∧
      doublingLoaded.call 3 2 [.i32 100] ⟨1024, fun _ => 0⟩ = .ok (results, after) ∧
      results = [.i32 88] ∧ List.Forall₂ Value.Represents results [.u8] ∧
      doublingLoaded.Evaluates { validated := false } [limiter, doubler]
        ⟨1, 0, limited.body.code, limited.enter [.i32 100] ⟨1024, fun _ => 0⟩⟩
        (.binary .add .u8 (.var 0) (.global "limit")) .u8 m ∧
      m.stack = [.i32 44] ∧ (Value.i32 44).Represents .u8 := by
  have hargs : List.Forall₂ Value.Represents [.i32 100] [.u8] :=
    .cons (Value.represents_iff.2 (Width.below_bound (by decide))) .nil
  have hcall : (doublingLoaded.call 3 2 [.i32 100] ⟨1024, fun _ => 0⟩).toOption.any
      (fun out => out.1 == [.i32 88]) = true := by
    decide +kernel
  obtain ⟨⟨results, after⟩, hcall, hresults⟩ := ok_of_any hcall
  obtain ⟨m, hpoint, hstack⟩ := evaluates_limited ⟨1024, fun _ => 0⟩
  obtain ⟨hreturned, r, hr, hpoints⟩ := Link.masked_representation link_doubling widthTyped_doubler
    doublingLoaded (i := 1) rfl hargs 2 ⟨1024, fun _ => 0⟩
  obtain rfl : doubled = r := Option.some.inj hr
  obtain ⟨v, hv, hvalue⟩ := hpoints _ _ _ _ (reaches_limited _) hpoint
  rw [hstack] at hv
  cases hv
  exact ⟨results, after, m, link_doubling, widthTyped_doubler, hargs, hcall, beq_iff_eq.1 hresults,
    hreturned results after hcall, hpoint, hstack, hvalue⟩

end Tally

end WasmLowering
