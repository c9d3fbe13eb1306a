/-
# The declared widths of a program

The units of a program declare the widths of its functions and globals.  In
index order, as the unit that comes last sees them:

| index | function                                | global                                |
|-------|-----------------------------------------|---------------------------------------|
| `0`   | the hook, without parameters or results | the address of the segment, 32 bits   |
| then  | the functions of the units, in order    | the globals of the units, in order    |

A program is width-typed if each unit is, over what it and the units before it
declare.  Then its globals are at their widths, whatever they are copied from
(`Link.below_globals`), and each of its functions is a declared one with code
that leaves results at their widths (`Link.routines_declared`).
-/

import WasmLowering.Initializer
import WasmLowering.Proofs.IndexStability
import WasmLowering.Proofs.ProgramRuns
import WasmLowering.Proofs.Resolution
import WasmLowering.Proofs.WidthTyping

namespace WasmLowering

open Wasm

/-! ## Tables -/

/-- The declared widths of a function. -/
def Function.widths (f : Function) : FuncWidths := ⟨f.args, f.results⟩

/-- The type of a function with some widths. -/
def FuncWidths.type (t : FuncWidths) : FuncType := ⟨t.params.map Width.kind, t.results.map Width.kind⟩

/-- What units declare, in index order. -/
def Declared.ofUnits (units : List SourceUnit) : Declared where
  functions := ⟨[], []⟩ :: (units.flatMap SourceUnit.functions).map Function.widths
  globals := .u32 :: (units.flatMap SourceUnit.globals).map Global.width

/-- **The types of functions are those of their widths.** -/
theorem offers_type (units : List SourceUnit) :
    (offers units).map Offer.type = (Declared.ofUnits units).functions.map FuncWidths.type := by
  simp [offers, Offer.hook, SourceUnit.offers, Declared.ofUnits, FuncWidths.type, Function.widths,
    Function.type, List.map_flatMap, Function.comp_def]

/-- **More units declare more,** behind what was there. -/
theorem Declared.globals_append (units more : List SourceUnit) :
    (Declared.ofUnits (units ++ more)).globals =
      (Declared.ofUnits units).globals ++ (more.flatMap SourceUnit.globals).map Global.width := by
  simp [Declared.ofUnits]

theorem Declared.functions_append (units more : List SourceUnit) :
    (Declared.ofUnits (units ++ more)).functions =
      (Declared.ofUnits units).functions ++ (more.flatMap SourceUnit.functions).map Function.widths := by
  simp [Declared.ofUnits]

/-- **What units declare fits the scope of the last one.** -/
theorem Linked.fits {minPages : Nat} {units : List SourceUnit} {state : LinkState} {u : SourceUnit}
    {scope : Scope} (h : Linked minPages units state) (hs : Scope.ofUnit state u = .ok scope) :
    (Declared.ofUnits (units ++ [u])).Fits scope where
  hasResult {i t} ht := by
    have hresults : scope.functions.map Callable.hasResult =
        (Declared.ofUnits (units ++ [u])).functions.map (!·.results.isEmpty) := by
      rw [h.scope_functions hs]
      simp [offers, Offer.hook, Offer.callable, SourceUnit.offers, Declared.ofUnits, Function.widths,
        Function.type, List.map_flatMap, Function.comp_def]
    have hi := congrArg (·[i]?) hresults
    simp only [List.getElem?_map, ht, Option.map_some] at hi
    obtain ⟨c, hc, hcr⟩ := Option.map_eq_some_iff.1 hi
    rw [Scope.hasResult, hc]
    exact hcr
  dataStart := rfl
  hook := rfl

/-! ## Globals -/

namespace Initializer

/-- **A word that is cut to a width is at the width.** -/
theorem below_cut {w : Width} (hw : w ≠ .bool) (v : BitVec 32) : (Value.i32 (cut w v)).Below w.bound := by
  by_cases hn : w.narrow = true
  · have hmask := Width.below_maskWord hn
    unfold cut
    rw [if_pos hn]
    exact IntOp.below_and (k := .i32) (a := .i32 v) hmask rfl
  · rw [Width.bound_of_not_narrow hn hw]
    exact Value.below_none _

/-- **An operator on constants is no comparison.** -/
theorem resultWidth_of_compute? {op : Operator} {n : Nat} {x y z : BitVec n} (hz : compute? op x y = some z)
    (w : Width) : op.resultWidth w = w := by
  have hop : op.isComparison = false := by
    cases op <;> first | rfl | cases hz
  unfold Operator.resultWidth
  rw [hop]
  rfl

end Initializer

/-- **The value of a constant is at its width,** and no constant is a truth value. -/
theorem Folds.below_bound {decl : Declared} {scope : Scope} {vars : List Width} {e : Expr} {w : Width} {v : Value}
    (h : Folds e v) (hw : HasWidth decl scope vars e w) : w ≠ .bool ∧ v.Below w.bound := by
  induction h generalizing w with
  | literal hv =>
    rcases hw
    exact (Literal.toNat_lt_of_parse hv).imp_right Width.below_bound
  | word _ _ _ hz ihl ihr =>
    rcases hw with _ | _ | _ | _ | _ | ⟨hl, hr⟩
    have hne := (ihl hl).1
    rw [Initializer.resultWidth_of_compute? hz]
    exact ⟨hne, Initializer.below_cut hne _⟩
  | wide hk _ _ hz ihl ihr =>
    rcases hw with _ | _ | _ | _ | _ | ⟨hl, hr⟩
    rw [Initializer.resultWidth_of_compute? hz, Width.bound_of_wide hk]
    exact ⟨(ihl hl).1, Value.below_none _⟩

/-! ## Width-typed programs -/

/-- The functions and globals of a unit are width-typed. -/
structure SourceUnit.WidthTyped (decl : Declared) (scope : Scope) (u : SourceUnit) : Prop where
  functions : ∀ f ∈ u.functions, f.WidthTyped decl scope
  globals : ∀ g ∈ u.globals, g.WidthTyped decl scope

/-- Each unit is width-typed in its scope, over what it and the units before it declare. -/
def Link.WidthTyped (minPages : Nat) (units : List SourceUnit) : Prop :=
  ∀ (k : Nat) (u : SourceUnit) (scope : Scope), units[k]? = some u →
    Scope.ofUnit (.after minPages (units.take k)) u = .ok scope →
    u.WidthTyped (.ofUnits (units.take (k + 1))) scope

/-- **Items that correspond at every place** correspond at a place. -/
theorem forall₂_getElem? {α β : Type} {R : α → β → Prop} {as : List α} {bs : List β}
    (h : List.Forall₂ R as bs) {i : Nat} {a : α} {b : β} (ha : as[i]? = some a) (hb : bs[i]? = some b) :
    R a b := by
  induction h generalizing i with
  | nil => cases ha
  | cons hab _ ih =>
    rcases i with _ | i
    · cases ha
      cases hb
      exact hab
    · exact ih ha hb

/-- **A defined global starts at its width,** if the imported globals are at theirs. -/
theorem Assembly.below_globalDef {decl : Declared} {scope : Scope} {g : Global} {d : GlobalDef}
    {imported : List Value} (h : globalDef scope g = .ok d) (hg : g.WidthTyped decl scope)
    (himported : ∀ (i : Nat) (v : Value) (w : Width), imported[i]? = some v → decl.globals[i]? = some w →
      v.Below w.bound) : (d.init.value imported).Below g.width.bound := by
  obtain ⟨init, hi, h⟩ := ok_of_bind h
  cases h
  cases Starts.of_ofGlobal hi with
  | value hv => exact (hv.below_bound hg).2
  | @copy name i hname hs =>
    show ((imported[i]?).getD .unit).Below g.width.bound
    unfold Global.WidthTyped at hg
    rw [hname] at hg
    rcases hg with _ | ⟨hi, hw⟩ | ⟨-, hw⟩
    · obtain rfl := Option.some.inj (hs.symm.trans hi)
      cases hv : imported[i]? with
      | none => exact g.width.below_unit
      | some v => exact himported i v _ hv hw
    · rw [Width.bound_eq_none (Nat.le_of_eq hw.symm)]
      exact Value.below_none _

/-- **The globals that a unit defines start at their widths.** -/
theorem Assembly.below_globalDefs {decl : Declared} {scope : Scope} {u : SourceUnit} {globals : List GlobalDef}
    {imported : List Value} (h : globalDefs scope u = .ok globals)
    (hu : ∀ g ∈ u.globals, g.WidthTyped decl scope)
    (himported : ∀ (i : Nat) (v : Value) (w : Width), imported[i]? = some v → decl.globals[i]? = some w →
      v.Below w.bound) :
    List.Forall₂ Value.Below (globals.map fun d => d.init.value imported)
      ((u.globals.map Global.width).map Width.bound) := by
  have hdefs : List.Forall₂ (fun g d => globalDef scope g = .ok d) u.globals globals := by
    have heq := map_of_globalDefs h
    rw [← List.forall₂_eq_eq_eq, List.forall₂_map_left_iff, List.forall₂_map_right_iff] at heq
    exact heq
  have hboth := (List.forall₂_and_left _ _).2 ⟨hu, hdefs⟩
  rw [List.forall₂_map_left_iff, List.map_map, List.forall₂_map_right_iff]
  exact hboth.flip.imp fun d g hgd => below_globalDef hgd.2 hgd.1 himported

section Linked

variable {config : Config} {units : List SourceUnit} {p : Program} {k : Nat} {u : SourceUnit} {a : Assembled}

theorem take_add_one_of_unit (hu : units[k]? = some u) : units.take (k + 1) = units.take k ++ [u] := by
  rw [List.take_add_one, hu]
  rfl

/-- **A module imports as many globals as are declared before its unit.** -/
theorem length_importedGlobals (h : link config units = .ok p) (hu : units[k]? = some u)
    (ha : p.modules[k]? = some a) :
    a.code.importedGlobals.length = ((Declared.ofUnits (units.take k)).globals.map Width.bound).length := by
  have hlinked := linked_of_link h k
  have hcount := congrArg List.length hlinked.globalImports_eq
  have hnames := congrArg List.length (LinkState.after config.minPages (units.take k)).names_globalImports
  rw [Module.importedGlobals, imports_of_link h hu ha, LinkState.kinds_imports]
  simp only [List.length_map] at hnames ⊢
  rw [hnames, hcount]
  simp [SourceUnit.globalImports, Declared.ofUnits, List.length_flatMap]

/-- **The globals of a module are at their widths,** if those that it imports are. -/
theorem Link.below_globalValues (h : link config units = .ok p) (ht : WidthTyped config.minPages units)
    (hu : units[k]? = some u) (ha : p.modules[k]? = some a) (start : BitVec 32) {before : List Value}
    (hbefore : List.Forall₂ Value.Below (before.take a.code.importedGlobals.length).tail
      ((Declared.ofUnits (units.take k)).globals.map Width.bound).tail) :
    List.Forall₂ Value.Below (a.code.globalValues start before)
      ((Declared.ofUnits (units.take (k + 1))).globals.map Width.bound ++ [none]) := by
  obtain ⟨scope, _, segment, globals, _, hs, -, hdefs, -, hcode, -⟩ :=
    assemble_eq_ok ((assemble_of_link h).2 k u a hu ha)
  have htyped := ht k u scope hu hs
  have hdecl : (Declared.ofUnits (units.take (k + 1))).globals =
      (Declared.ofUnits (units.take k)).globals ++ u.globals.map Global.width := by
    rw [take_add_one_of_unit hu, Declared.globals_append]
    simp
  have himported : List.Forall₂ Value.Below (a.code.importedValues start before)
      ((Declared.ofUnits (units.take k)).globals.map Width.bound) := .cons (Value.below_none _) hbefore
  have hlookup : ∀ (i : Nat) (v : Value) (w : Width), (a.code.importedValues start before)[i]? = some v →
      (Declared.ofUnits (units.take (k + 1))).globals[i]? = some w → v.Below w.bound := by
    intro i v w hv hw
    have hi : i < (Declared.ofUnits (units.take k)).globals.length := by
      rw [← List.length_map Width.bound, ← himported.length_eq]
      exact (List.getElem?_eq_some_iff.1 hv).1
    rw [hdecl, List.getElem?_append_left hi] at hw
    refine forall₂_getElem? himported hv ?_
    rw [List.getElem?_map, hw, Option.map_some]
  have hown := Assembly.below_globalDefs hdefs htyped.globals hlookup
  have hglobals : a.code.globals = globals ++ [Assembly.sizeGlobal segment] := by rw [hcode]
  rw [Module.globalValues, hglobals, hdecl, List.map_append, List.map_append, List.append_assoc]
  exact List.rel_append himported (List.rel_append hown (.cons (Value.below_none _) .nil))

/-- **The globals of every module are at their widths.** -/
theorem Link.below_globals (h : link config units = .ok p) (ht : WidthTyped config.minPages units)
    (start : Nat → BitVec 32) (hu : units[k]? = some u) :
    List.Forall₂ Value.Below (p.globals start k)
      ((Declared.ofUnits (units.take (k + 1))).globals.map Width.bound ++ [none]) := by
  induction k generalizing u with
  | zero =>
    have hk : 0 < p.modules.length := (assemble_of_link h).1 ▸ (List.getElem?_eq_some_iff.1 hu).1
    have ha := List.getElem?_eq_getElem hk
    rw [Program.globals, ha]
    refine below_globalValues h ht hu ha (start 0) ?_
    rw [List.take_nil]
    exact .nil
  | succ k ih =>
    have hk : k + 1 < p.modules.length := (assemble_of_link h).1 ▸ (List.getElem?_eq_some_iff.1 hu).1
    have ha := List.getElem?_eq_getElem hk
    have hbefore := ih (List.getElem?_eq_getElem (Nat.lt_of_succ_lt (List.getElem?_eq_some_iff.1 hu).1))
    rw [Program.globals, ha]
    refine below_globalValues h ht hu ha (start (k + 1)) ?_
    rw [length_importedGlobals h hu ha]
    -- the module before has one more global, the size of its segment
    have hinherited := List.forall₂_drop 1 (List.forall₂_take_append _ _ _ hbefore)
    rwa [List.drop_one, List.drop_one] at hinherited

/-! ## Functions -/

/-- A function of a program is lowered from a declared one, in the scope of its unit. -/
def Routine.IsOf (config : Config) (units : List SourceUnit) (r : Routine) (f : Function) : Prop :=
  ∃ u scope seg seg', units[r.home]? = some u ∧
    Scope.ofUnit (.after config.minPages (units.take r.home)) u = .ok scope ∧ f ∈ u.functions ∧
    f.lower scope config.traced seg = .ok r.body seg'

/-- **The functions of a module are those of its unit.** -/
theorem Link.routines_unit (h : link config units = .ok p) (hu : units[k]? = some u)
    (ha : p.modules[k]? = some a) : List.Forall₂ (Routine.IsOf config units) (a.routines k) u.functions := by
  obtain ⟨scope, bodies, segment, globals, exports, hs, hbodies, -, -, hcode, -⟩ :=
    assemble_eq_ok ((assemble_of_link h).2 k u a hu ha)
  obtain ⟨hlength, hlower⟩ := Assembly.lower_of_lowerFunctions hbodies
  have hlowered : List.Forall₂ (fun f b => ∃ seg seg', f.lower scope config.traced seg = .ok b seg')
      u.functions bodies := List.forall₂_iff_zip.2 ⟨hlength.symm, fun hfb => hlower _ hfb⟩
  have hboth := (List.forall₂_and_left _ _).2 ⟨fun f (hf : f ∈ u.functions) => hf, hlowered⟩
  have hroutines : a.routines k = bodies.map (⟨k, ·⟩) := by rw [Assembled.routines, hcode]
  rw [hroutines, List.forall₂_map_left_iff]
  refine hboth.flip.imp fun b f hfb => ?_
  obtain ⟨hf, seg, seg', hb⟩ := hfb
  exact ⟨u, scope, seg, seg', hu, hs, hf, hb⟩

/-- **The functions of a program are those of its units,** in order. -/
theorem Link.routines_declared (h : link config units = .ok p) :
    List.Forall₂ (Routine.IsOf config units) p.routines (units.flatMap SourceUnit.functions) := by
  have hlength := (assemble_of_link h).1
  have hunits : List.Forall₂ (fun a u => p.modules[a.2]? = some a.1 ∧ units[a.2]? = some u)
      p.modules.zipIdx units := by
    refine List.forall₂_iff_get.2 ⟨by rw [List.length_zipIdx, hlength], fun i hi hi' => ?_⟩
    rw [List.get_eq_getElem, List.get_eq_getElem, List.getElem_zipIdx, Nat.zero_add]
    exact ⟨List.getElem?_eq_getElem _, List.getElem?_eq_getElem hi'⟩
  exact List.rel_flatMap hunits fun a u hau => routines_unit h hau.2 hau.1

end Linked

end WasmLowering
