/-
# Indices over a whole link

A module numbers what it imports first and what it defines behind, functions and
globals apart.  Units are assembled over states that only grow, so that an index
means the same thing from the module that defines it on:

| index space | imported                                     | defined                      |
|-------------|----------------------------------------------|------------------------------|
| functions   | the hook, the functions of the units before  | the unit's functions         |
| globals     | the address, the globals of the units before | the unit's globals, the size |

The unit's functions and globals are what the next state has more
(`functionImports_extend`, `globalImports_extend`), under the very indices they
were defined with.  The size stays behind: it is in no state.
-/

import WasmLowering.Link
import WasmLowering.Proofs.ModuleTyping

namespace WasmLowering

open Wasm

namespace Wasm.Module

variable (m : Module)

/-- The imported functions, by index. -/
def functionImports : List Import := m.imports.filter (·.entity.isFunction)

/-- The imported globals, by index. -/
def globalImports : List Import := m.imports.filter (·.entity.kind?.isSome)

/-- The imported memories, by index. -/
def memoryImports : List Import := m.imports.filter (·.entity.pages?.isSome)

end Wasm.Module

/-- The imports that the globals of a unit become for later units. -/
def SourceUnit.globalImports (u : SourceUnit) : List Import :=
  u.globals.map fun g => ⟨u.name, g.name, .global g.width.kind, g.isPublic⟩

namespace LinkState

/-- The imported globals, in order. -/
def globalImports (s : LinkState) : List Import := s.imports.filter (·.entity.kind?.isSome)

/-- The state after units. -/
def after (minPages : Nat) (units : List SourceUnit) : LinkState :=
  units.foldl LinkState.extend (.base minPages)

end LinkState

/-! ## What a unit adds -/

/-- **The globals among the imports of declarations** are those of the globals declared. -/
theorem Assembly.filter_declImports_global (owner : String) (first : Nat) (ds : List Decl) :
    (declImports owner first ds).filter (·.entity.kind?.isSome) =
      (ds.filterMap Decl.global?).map fun g => ⟨owner, g.name, .global g.width.kind, g.isPublic⟩ := by
  induction ds generalizing first with
  | nil => rfl
  | cons d ds ih => cases d with
    | function f => exact ih (first + 1)
    | global g => exact congrArg (_ :: ·) (ih first)
    | type n => exact ih first

namespace LinkState

/-- **A unit adds its functions to an aligned state,** each with the index it gets as its type. -/
theorem functionImports_extend {os : List Offer} {s : LinkState} (h : s.Aligned os) (u : SourceUnit) :
    (s.extend u).functionImports =
      s.functionImports ++ Offer.toImports s.functionImports.length u.offers := by
  have hlength : s.functionImports.length = os.length := by
    rw [h.imports, Offer.length_toImports]
  rw [(h.extend u).imports, Offer.toImports_append, ← h.imports, hlength, Nat.zero_add]

/-- **A unit adds its globals.** -/
theorem globalImports_extend (s : LinkState) (u : SourceUnit) :
    (s.extend u).globalImports = s.globalImports ++ u.globalImports := by
  rw [globalImports, extend, List.filter_append, Assembly.filter_declImports_global]
  rfl

/-- **A function of a unit becomes the import behind those before it.** -/
theorem functionImports_own {os : List Offer} {s : LinkState} (h : s.Aligned os) {u : SourceUnit}
    {q : Nat} {f : Function} (hf : u.functions[q]? = some f) :
    (s.extend u).functionImports[s.functionImports.length + q]? =
      some ⟨u.name, f.name, .function (s.functionImports.length + q), f.isPublic⟩ := by
  rw [functionImports_extend h, List.getElem?_append_right (Nat.le_add_right ..), Nat.add_sub_cancel_left]
  simp [Offer.toImports, Offer.toImport, SourceUnit.offers, hf]

/-- **A global of a unit becomes the import behind those before it.** -/
theorem globalImports_own (s : LinkState) {u : SourceUnit} {q : Nat} {g : Global}
    (hg : u.globals[q]? = some g) :
    (s.extend u).globalImports[s.globalImports.length + q]? =
      some ⟨u.name, g.name, .global g.width.kind, g.isPublic⟩ := by
  rw [globalImports_extend, List.getElem?_append_right (Nat.le_add_right ..), Nat.add_sub_cancel_left]
  simp [SourceUnit.globalImports, hg]

/-- **Units add their globals one after the other.** -/
theorem globalImports_foldl (units : List SourceUnit) (s : LinkState) :
    (units.foldl extend s).globalImports = s.globalImports ++ units.flatMap SourceUnit.globalImports := by
  induction units generalizing s with
  | nil => simp
  | cons u units ih => simp [ih, globalImports_extend]

/-! ## States along a link -/

/-- **The state after one more unit.** -/
theorem after_take_succ {minPages j : Nat} {units : List SourceUnit} {u : SourceUnit}
    (hu : units[j]? = some u) :
    after minPages (units.take (j + 1)) = (after minPages (units.take j)).extend u := by
  rw [List.take_add_one, hu]
  simp [after]

/-- **States only grow,** in types and in imports. -/
theorem after_grows (minPages : Nat) (units : List SourceUnit) {j k : Nat} (hjk : j ≤ k) :
    (after minPages (units.take j)).types <+: (after minPages (units.take k)).types ∧
    (after minPages (units.take j)).imports <+: (after minPages (units.take k)).imports := by
  induction hjk with
  | refl => exact ⟨List.prefix_rfl, List.prefix_rfl⟩
  | @step k _ ih =>
    cases hu : units[k]? with
    | none => simpa [List.take_add_one, hu] using ih
    | some u =>
      rw [after_take_succ hu]
      exact ⟨ih.1.trans (List.prefix_append ..), ih.2.trans (List.prefix_append ..)⟩

end LinkState

/-- **Units that are all assembled** are each assembled over what the units before it leave. -/
theorem Link.assembleAll_eq_ok {config : Config} {units : List SourceUnit} :
    ∀ {state : LinkState} {as : List Assembled}, assembleAll config state units = .ok as →
      as.length = units.length ∧
      ∀ (j : Nat) (u : SourceUnit) (a : Assembled), units[j]? = some u → as[j]? = some a →
        assemble config ((units.take j).foldl LinkState.extend state) u =
          .ok (a, (units.take (j + 1)).foldl LinkState.extend state) := by
  induction units with
  | nil =>
    intro state as h
    cases h
    simp
  | cons v units ih =>
    intro state as h
    obtain ⟨⟨first, next⟩, hfirst, h⟩ := ok_of_bind h
    obtain ⟨rest, hrest, h⟩ := ok_of_bind h
    cases h
    obtain rfl := next_of_assemble hfirst
    obtain ⟨hlength, hall⟩ := ih hrest
    refine ⟨by simp [hlength], ?_⟩
    rintro (_ | j) u a hu ha
    · simp only [List.getElem?_cons_zero, Option.some.injEq] at hu ha
      subst hu ha
      simpa using hfirst
    · exact hall j u a hu ha

/-- **A linked program has one module for each unit,** assembled over the state that the units before
it leave. -/
theorem assemble_of_link {config : Config} {units : List SourceUnit} {p : Program}
    (h : link config units = .ok p) :
    p.modules.length = units.length ∧
    ∀ (j : Nat) (u : SourceUnit) (a : Assembled), units[j]? = some u → p.modules[j]? = some a →
      assemble config (.after config.minPages (units.take j)) u =
        .ok (a, .after config.minPages (units.take (j + 1))) := by
  obtain ⟨modules, hmodules, h⟩ := ok_of_bind h
  have hp : p.modules = modules := by
    split at h
    · obtain ⟨_, -, h⟩ := ok_of_bind h
      cases h
      rfl
    · cases h
      rfl
  rw [hp]
  exact Link.assembleAll_eq_ok hmodules

/-- **The states of a link are reached.** -/
theorem linked_of_link {config : Config} {units : List SourceUnit} {p : Program}
    (h : link config units = .ok p) (j : Nat) :
    Linked config.minPages (units.take j) (.after config.minPages (units.take j)) := by
  obtain ⟨hlength, hall⟩ := assemble_of_link h
  induction j with
  | zero => exact .base
  | succ j ih =>
    cases hu : units[j]? with
    | none => simpa [List.take_add_one, hu] using ih
    | some u =>
      have hj : j < p.modules.length := hlength ▸ (List.getElem?_eq_some_iff.1 hu).1
      have hstep := ih.unit (hall j u p.modules[j] hu (List.getElem?_eq_getElem hj))
      rw [List.take_add_one, hu]
      rwa [List.take_add_one, hu] at hstep

/-! ## What names mean -/

/-- **The names of globals are among the names of symbols**, in order. -/
theorem SourceUnit.sublist_globals (ds : List Decl) :
    List.Sublist ((ds.filterMap Decl.global?).map Global.name)
      ((ds.filter Decl.isSymbol).map Decl.name) := by
  induction ds with
  | nil => exact .slnil
  | cons d ds ih => cases d with
    | function f => exact .cons _ ih
    | global g => exact .cons_cons _ ih
    | type n => exact ih

/-- **A unit's own globals stand right behind the imported ones**, and each is what its name means. -/
theorem Scope.global?_own {os : List Offer} {state : LinkState} (h : state.Aligned os)
    {u : SourceUnit} {scope : Scope} (hs : ofUnit state u = .ok scope) {q : Nat} {g : Global}
    (hg : u.globals[q]? = some g) : scope.global? g.name = some (state.globalImports.length + q) := by
  have hcount : state.globals.length = state.globalImports.length := by
    have hkinds := congrArg List.length state.kinds_imports
    rw [List.length_map] at hkinds
    rw [← hkinds, LinkState.globalImports, List.length_filterMap_eq_countP, List.countP_eq_length_filter]
  rw [ofUnit_eq h] at hs
  obtain ⟨rfl, hnodup, -, -⟩ := addDecls_eq_ok hs
  have hnames : (u.globals.map Global.name).Nodup :=
    hnodup.sublist (SourceUnit.sublist_globals u.decls)
  have hown : (u.globals.map Global.name)[q]? = some g.name := by
    rw [List.getElem?_map, hg]
    rfl
  have hlast := lastIdx?_of_nodup id (by rwa [List.map_id]) hown
  show lastIdx? (fun n => n == g.name) (state.globals.map Prod.fst ++ u.globals.map Global.name) = _
  simp only [id] at hlast
  rw [lastIdx?_append, hlast, List.length_map, hcount]
  rfl

/-! ## Stability -/

/-- **What is selected from a prefix** is selected from the whole, at the same place. -/
theorem getElem?_filter_extended {α : Type} {p : α → Bool} {as bs : List α} (h : as <+: bs) {i : Nat}
    {a : α} (ha : (as.filter p)[i]? = some a) : (bs.filter p)[i]? = some a := by
  obtain ⟨more, rfl⟩ := h
  rw [List.filter_append, List.getElem?_append_left (List.getElem?_eq_some_iff.1 ha).1]
  exact ha

/-- **What the loader supplies comes first** in every state that is reached, and the only memory is its
own. -/
theorem Linked.loader_imports {minPages : Nat} {units : List SourceUnit} {state : LinkState}
    (h : Linked minPages units state) :
    state.functionImports[0]? = some ⟨"runtime", "debug", .function 0, true⟩ ∧
    state.types[0]? = some ⟨[], []⟩ ∧
    state.globalImports[0]? = some ⟨"runtime", "data_start", .global .i32, true⟩ ∧
    state.imports.filter (·.entity.pages?.isSome) =
      [⟨"runtime", "mem", .memory minPages, true⟩] := by
  obtain ⟨more, himports, hmore⟩ := h.imports
  have hprefix : (LinkState.base minPages).imports <+: state.imports := ⟨more, himports.symm⟩
  have hnone : more.filter (·.entity.pages?.isSome) = [] := by
    rw [List.filter_eq_nil_iff]
    intro i hi
    rw [List.filterMap_eq_nil_iff.1 hmore i hi]
    decide
  refine ⟨getElem?_filter_extended hprefix rfl, ?_, getElem?_filter_extended hprefix rfl, ?_⟩
  · rw [h.aligned.types]
    rfl
  · rw [himports, List.filter_append, hnone]
    rfl

section Stable

variable {config : Config} {units : List SourceUnit} {p : Program} {j : Nat} {u : SourceUnit} {a : Assembled}

/-- **A module imports what the state before its unit holds.** -/
theorem imports_of_link (h : link config units = .ok p) (hu : units[j]? = some u)
    (ha : p.modules[j]? = some a) :
    a.code.imports = (LinkState.after config.minPages (units.take j)).imports := by
  obtain ⟨_, _, _, _, _, -, -, -, -, hcode, -⟩ := assemble_eq_ok ((assemble_of_link h).2 j u a hu ha)
  rw [hcode]

/-- **A later module imports all that the state right after a unit holds.** -/
theorem imports_later (h : link config units = .ok p) (hu : units[j]? = some u) {k : Nat} {b : Assembled}
    (hjk : j < k) (hb : p.modules[k]? = some b) :
    ((LinkState.after config.minPages (units.take j)).extend u).imports <+: b.code.imports := by
  have hk : k < units.length := (assemble_of_link h).1 ▸ (List.getElem?_eq_some_iff.1 hb).1
  rw [imports_of_link h (List.getElem?_eq_getElem hk) hb, ← LinkState.after_take_succ hu]
  exact (LinkState.after_grows config.minPages units hjk).2

/-- **The type index of a function is its index.** -/
theorem functions_of_link (h : link config units = .ok p) (hu : units[j]? = some u)
    (ha : p.modules[j]? = some a) {q : Nat} {f : Function} (hf : u.functions[q]? = some f) :
    a.code.functions[q]? = some (a.code.functionImports.length + q) := by
  have hal := (linked_of_link h j).aligned
  obtain ⟨scope, _, _, _, _, hs, -, -, -, hcode, -⟩ :=
    assemble_eq_ok ((assemble_of_link h).2 j u a hu ha)
  have hcount : a.code.functionImports.length = (offers (units.take j)).length := by
    rw [Module.functionImports, imports_of_link h hu ha]
    exact (congrArg List.length hal.imports).trans (Offer.length_toImports ..)
  have hq : q < u.functions.length := (List.getElem?_eq_some_iff.1 hf).1
  rw [hcount, hcode, Scope.eq_of_ofUnit hal hs]
  simp [List.getElem?_range' hq]

/-- **The globals of a unit are defined in order,** before the size of its segment. -/
theorem globals_of_link (h : link config units = .ok p) (hu : units[j]? = some u)
    (ha : p.modules[j]? = some a) {q : Nat} {g : Global} (hg : u.globals[q]? = some g) :
    (a.code.globals[q]?).map GlobalDef.kind = some g.width.kind := by
  obtain ⟨_, _, _, globals, _, -, -, hdefs, -, hcode, -⟩ :=
    assemble_eq_ok ((assemble_of_link h).2 j u a hu ha)
  have hkind := congrArg (·[q]?) (Assembly.kinds_globalDefs hdefs)
  simp only [List.getElem?_map, hg, Option.map_some] at hkind
  obtain ⟨d, hd, -⟩ := Option.map_eq_some_iff.1 hkind
  rw [hcode, List.getElem?_append_left (List.getElem?_eq_some_iff.1 hd).1, hkind]

end Stable

/-- **Indices are stable across a link.**  Each unit is assembled over a state whose types and imports are
prefixes of those after it.  In every module function 0 is the hook, with the empty type, global 0 is the
address of the segment, and the memory of the loader is the only one.  A function or global that a unit
declares has the same index in the unit's own module, where its name means it, and among the imports of every
later module.  The imported globals are the address and the declared globals of the units before, so the size
of a segment takes no index of a later module. -/
theorem Link.index_stability {config : Config} {units : List SourceUnit} {p : Program}
    (h : link config units = .ok p) :
    p.modules.length = units.length ∧
    ∀ (j : Nat) (u : SourceUnit) (a : Assembled), units[j]? = some u → p.modules[j]? = some a →
      (∃ state next scope,
        assemble config state u = .ok (a, next) ∧ Scope.ofUnit state u = .ok scope ∧
        state = .after config.minPages (units.take j) ∧
        next = .after config.minPages (units.take (j + 1)) ∧
        a.code.imports = state.imports ∧
        state.types <+: next.types ∧ state.imports <+: next.imports ∧
        (∀ (q : Nat) (f : Function), u.functions[q]? = some f →
          scope.function? f.name = some (a.code.functionImports.length + q)) ∧
        ∀ (q : Nat) (g : Global), u.globals[q]? = some g →
          scope.global? g.name = some (a.code.globalImports.length + q)) ∧
      (∀ (q : Nat) (f : Function), u.functions[q]? = some f →
        a.code.functions[q]? = some (a.code.functionImports.length + q) ∧
        ∀ (k : Nat) (b : Assembled), j < k → p.modules[k]? = some b →
          b.code.functionImports[a.code.functionImports.length + q]? =
            some ⟨u.name, f.name, .function (a.code.functionImports.length + q), f.isPublic⟩) ∧
      (∀ (q : Nat) (g : Global), u.globals[q]? = some g →
        (a.code.globals[q]?).map GlobalDef.kind = some g.width.kind ∧
        ∀ (k : Nat) (b : Assembled), j < k → p.modules[k]? = some b →
          b.code.globalImports[a.code.globalImports.length + q]? =
            some ⟨u.name, g.name, .global g.width.kind, g.isPublic⟩) ∧
      a.code.functionImports[0]? = some ⟨"runtime", "debug", .function 0, true⟩ ∧
      a.code.types[0]? = some ⟨[], []⟩ ∧
      a.code.globalImports[0]? = some ⟨"runtime", "data_start", .global .i32, true⟩ ∧
      a.code.memoryImports = [⟨"runtime", "mem", .memory config.minPages, true⟩] ∧
      a.code.globalImports =
        ⟨"runtime", "data_start", .global .i32, true⟩ ::
          (units.take j).flatMap SourceUnit.globalImports := by
  obtain ⟨hlength, hall⟩ := assemble_of_link h
  refine ⟨hlength, fun j u a hu ha => ?_⟩
  have hlinked := linked_of_link h j
  have hal := hlinked.aligned
  have hassemble := hall j u a hu ha
  obtain ⟨scope, _, _, _, _, hs, -, -, -, hcode, -⟩ := assemble_eq_ok hassemble
  have himports := imports_of_link h hu ha
  have hfunctions : a.code.functionImports =
      (LinkState.after config.minPages (units.take j)).functionImports :=
    congrArg (List.filter _) himports
  have hglobals : a.code.globalImports =
      (LinkState.after config.minPages (units.take j)).globalImports :=
    congrArg (List.filter _) himports
  obtain ⟨hhook, hempty, hstart, hmemory⟩ := hlinked.loader_imports
  obtain ⟨htypes, hgrows⟩ := LinkState.after_grows config.minPages units (Nat.le_succ j)
  refine ⟨⟨_, _, scope, hassemble, hs, rfl, rfl, himports, htypes, hgrows, ?_, ?_⟩,
    ?_, ?_, ?_, ?_, ?_, ?_, ?_⟩
  · intro q f hf
    rw [hfunctions, hal.imports, Offer.length_toImports]
    exact Scope.function?_own hal hs hf
  · intro q g hg
    rw [hglobals]
    exact Scope.global?_own hal hs hg
  · intro q f hf
    refine ⟨functions_of_link h hu ha hf, fun k b hjk hb => ?_⟩
    rw [hfunctions]
    exact getElem?_filter_extended (imports_later h hu hjk hb) (LinkState.functionImports_own hal hf)
  · intro q g hg
    refine ⟨globals_of_link h hu ha hg, fun k b hjk hb => ?_⟩
    rw [hglobals]
    exact getElem?_filter_extended (imports_later h hu hjk hb) (LinkState.globalImports_own _ hg)
  · rw [hfunctions, hhook]
  · rw [hcode]
    show (LinkState.types _ ++ _)[0]? = _
    rw [List.getElem?_append_left (List.getElem?_eq_some_iff.1 hempty).1, hempty]
  · rw [hglobals, hstart]
  · exact (congrArg (List.filter _) himports).trans hmemory
  · rw [hglobals, LinkState.after, LinkState.globalImports_foldl]
    rfl

/-- **The counter's function and limit** keep their indices, one each, in the module over the counter. -/
theorem Tally.index_stability_client :
    ∃ p a b, link { validated := false } [counter, client] = .ok p ∧
      p.modules[0]? = some a ∧ p.modules[1]? = some b ∧
      a.code.functionImports.length = 1 ∧ a.code.globalImports.length = 1 ∧
      b.code.functionImports[1]? = some ⟨"counter", "next", .function 1, true⟩ ∧
      b.code.globalImports[1]? = some ⟨"counter", "limit", .global .i32, true⟩ := by
  obtain ⟨p, a, b, hp, ha, hb, hf, hg⟩ : ∃ p a b,
      link { validated := false } [counter, client] = .ok p ∧
      p.modules[0]? = some a ∧ p.modules[1]? = some b ∧
      a.code.functionImports.length = 1 ∧ a.code.globalImports.length = 1 :=
    ⟨_, _, _, rfl, rfl, rfl, rfl, rfl⟩
  obtain ⟨-, hall⟩ := Link.index_stability hp
  obtain ⟨-, hfunctions, hglobals, -⟩ := hall 0 counter a rfl ha
  obtain ⟨-, hnext⟩ := hfunctions 0 _ rfl
  obtain ⟨-, hlimit⟩ := hglobals 0 _ rfl
  refine ⟨p, a, b, hp, ha, hb, hf, hg, ?_, ?_⟩
  · have himport := hnext 1 b (by decide) hb
    rw [hf] at himport
    exact himport
  · have himport := hlimit 1 b (by decide) hb
    rw [hg] at himport
    exact himport

end WasmLowering
