/-
# Imports and what provides them

Each unit of a link brings its functions and globals into the imports of all
later modules, public or not.  A loader looks for an import among the exports of
the module that owns it, by its name.  What it finds there:

| the import is of                        | exports under its name           |
|-----------------------------------------|----------------------------------|
| a public declaration                    | one: the declaration             |
| a private declaration                   | none                             |
| a private declaration named `data_size` | one: the size of the segment     |

All modules export the size of their segment, and only public declarations are
kept from taking its name.  So the last row is a private declaration that a
loader takes for something else.
-/

import Mathlib.Data.List.Nodup
import WasmLowering.Proofs.ItemChecking
import WasmLowering.Proofs.Resolution

namespace WasmLowering

open Wasm

/-! ## Items of a unit among its declarations -/

namespace SourceUnit

variable {u : SourceUnit}

/-- **A function of a unit** is one of its declarations. -/
theorem mem_functions {f : Function} : f ∈ u.functions ↔ .function f ∈ u.decls := by
  rw [functions, List.mem_filterMap]
  constructor
  · rintro ⟨d, hd, hf⟩
    cases d <;> cases hf
    exact hd
  · exact fun hd => ⟨_, hd, rfl⟩

/-- **A global of a unit** is one of its declarations. -/
theorem mem_globals {g : Global} : g ∈ u.globals ↔ .global g ∈ u.decls := by
  rw [globals, List.mem_filterMap]
  constructor
  · rintro ⟨d, hd, hg⟩
    cases d <;> cases hg
    exact hd
  · exact fun hd => ⟨_, hd, rfl⟩

/-- **A name tells the symbol** if all symbols of the unit differ. -/
theorem eq_of_name_eq (h : u.symbols.Nodup) {d d' : Decl} (hd : d ∈ u.decls) (hd' : d' ∈ u.decls)
    (hs : d.isSymbol = true) (hs' : d'.isSymbol = true) (hname : d.name = d'.name) : d = d' :=
  List.inj_on_of_nodup_map h (List.mem_filter.2 ⟨hd, hs⟩) (List.mem_filter.2 ⟨hd', hs'⟩) hname

end SourceUnit

/-- **An import that declarations bring** is that of a function, with the next type, or of a global. -/
theorem Assembly.of_mem_declImports {owner : String} {i : Import} {ds : List Decl} :
    ∀ {first : Nat}, i ∈ declImports owner first ds →
      (∃ (q : Nat) (f : Function), (ds.filterMap Decl.function?)[q]? = some f ∧
        i = ⟨owner, f.name, .function (first + q), f.isPublic⟩) ∨
      ∃ (q : Nat) (g : Global), (ds.filterMap Decl.global?)[q]? = some g ∧
        i = ⟨owner, g.name, .global g.width.kind, g.isPublic⟩ := by
  induction ds with
  | nil => exact fun h => absurd h List.not_mem_nil
  | cons d ds ih =>
    intro first h
    cases d with
    | function f =>
      rcases List.mem_cons.1 h with rfl | h
      · exact .inl ⟨0, f, rfl, rfl⟩
      · rcases ih h with ⟨q, f', hq, rfl⟩ | ⟨q, g, hq, rfl⟩
        · exact .inl ⟨q + 1, f', hq, by rw [Nat.add_right_comm, Nat.add_assoc]⟩
        · exact .inr ⟨q, g, hq, rfl⟩
    | global g =>
      rcases List.mem_cons.1 h with rfl | h
      · exact .inr ⟨0, g, rfl, rfl⟩
      · rcases ih h with ⟨q, f, hq, rfl⟩ | ⟨q, g', hq, rfl⟩
        · exact .inl ⟨q, f, hq, rfl⟩
        · exact .inr ⟨q + 1, g', hq, rfl⟩
    | type n => exact ih h

/-! ## Exports by name -/

/-- **With different keys, one item has a key.** -/
theorem filter_eq_singleton {α : Type} (key : α → String) {a : α} {as : List α}
    (hn : (as.map key).Nodup) (ha : a ∈ as) : as.filter (fun b => key b == key a) = [a] := by
  induction as with
  | nil => cases ha
  | cons b as ih =>
    obtain ⟨hb, hn⟩ := List.nodup_cons.1 hn
    rcases List.mem_cons.1 ha with rfl | ha
    · have hrest : as.filter (fun c => key c == key a) = [] := by
        rw [List.filter_eq_nil_iff]
        intro c hc hkey
        exact hb (beq_iff_eq.1 hkey ▸ List.mem_map_of_mem hc)
      rw [List.filter_cons, if_pos (beq_self_eq_true (key a)), hrest]
    · have hne : ¬ (key b == key a) = true := fun hkey => hb (beq_iff_eq.1 hkey ▸ List.mem_map_of_mem ha)
      rw [List.filter_cons, if_neg hne, ih hn ha]

namespace Assembly

variable {os : List Offer} {state : LinkState} {u : SourceUnit} {scope : Scope} {es : List Export}

/-- The export of the size of a segment. -/
def sizeExport (scope : Scope) : Export := ⟨Loader.dataSize, .global, scope.globals.length⟩

/-- **The exports of a unit** are those of its declarations and that of the size. -/
theorem exports_eq_ok (he : exports scope u = .ok es) :
    ∃ own : List (Option Export), u.decls.map (export? scope) = own.map .ok ∧
      es = own.reduceOption ++ [sizeExport scope] := by
  obtain ⟨own, hm, he⟩ := ok_of_bind he
  cases he
  exact ⟨own, map_of_mapM hm, rfl⟩

/-- **What a declaration exports** is among the exports of its unit. -/
theorem mem_exports (he : exports scope u = .ok es) {d : Decl} (hd : d ∈ u.decls) {e : Export}
    (hexport : export? scope d = .ok (some e)) : e ∈ es := by
  obtain ⟨own, hown, rfl⟩ := exports_eq_ok he
  have hmem : (.ok (some e) : Except Fault (Option Export)) ∈ own.map .ok :=
    hown ▸ hexport ▸ List.mem_map_of_mem hd
  obtain ⟨o, ho, heq⟩ := List.mem_map.1 hmem
  cases heq
  exact List.mem_append_left _ (List.mem_filterMap.2 ⟨some e, ho, rfl⟩)

/-- **A public function is exported** under the index that its name stands for. -/
theorem export?_function {f : Function} (hpublic : f.isPublic = true) {i : Nat}
    (hi : scope.function? f.name = some i) :
    export? scope (.function f) = .ok (some ⟨f.name, .function, i⟩) := by
  rw [export?, if_pos (show (Decl.function f).isPublic = true from hpublic)]
  show (scope.function f.name >>= _) = _
  rw [Scope.function_eq_ok.2 hi]
  rfl

/-- **A public global is exported** under the index that its name stands for. -/
theorem export?_global {g : Global} (hpublic : g.isPublic = true) {i : Nat}
    (hi : scope.global? g.name = some i) :
    export? scope (.global g) = .ok (some ⟨g.name, .global, i⟩) := by
  rw [export?, if_pos (show (Decl.global g).isPublic = true from hpublic)]
  show (scope.global g.name >>= _) = _
  rw [Scope.global_eq_ok.2 hi]
  rfl

/-- **What a public declaration exports** is all that is exported under its name. -/
theorem filter_exports_public (hal : state.Aligned os) (hs : Scope.ofUnit state u = .ok scope)
    (he : exports scope u = .ok es) {d : Decl} (hd : d ∈ u.decls) {e : Export}
    (hexport : export? scope d = .ok (some e)) : es.filter (fun e => e.name == d.name) = [e] := by
  rw [← (export?_eq_some hexport).2.2.1]
  exact filter_eq_singleton Export.name (nodup_exports hal hs he).1 (mem_exports he hd hexport)

/-- **Under the name of a private symbol** nothing is exported but the size, if that is its name. -/
theorem filter_exports_private (hal : state.Aligned os) (hs : Scope.ofUnit state u = .ok scope)
    (he : exports scope u = .ok es) {d : Decl} (hd : d ∈ u.decls) (hsymbol : d.isSymbol = true)
    (hprivate : d.isPublic = false) :
    es.filter (fun e => e.name == d.name) = if d.name = Loader.dataSize then [sizeExport scope] else [] := by
  rw [Scope.ofUnit_eq hal] at hs
  obtain ⟨-, hnodup, -, -⟩ := Scope.addDecls_eq_ok hs
  obtain ⟨own, hown, rfl⟩ := exports_eq_ok he
  have hnone : own.reduceOption.filter (fun e => e.name == d.name) = [] := by
    rw [List.filter_eq_nil_iff]
    intro e he hname
    obtain ⟨-, d', hd', hpublic, hd'name⟩ := (exports_of_decls hown).2 e he
    -- The declaration with this export is public, so it is a symbol, and another one.
    have hsymbol' : d'.isSymbol = true := by
      cases d' with
      | function f => rfl
      | global g => rfl
      | type n => cases hpublic
    have heq : d = d' := SourceUnit.eq_of_name_eq hnodup hd hd' hsymbol hsymbol'
      ((beq_iff_eq.1 hname).symm.trans hd'name)
    rw [← heq, hprivate] at hpublic
    cases hpublic
  rw [List.filter_append, hnone, List.nil_append]
  by_cases hsize : d.name = Loader.dataSize
  · rw [if_pos hsize, hsize]
    rfl
  · rw [if_neg hsize, List.filter_cons_of_neg, List.filter_nil]
    exact fun hname => hsize (beq_iff_eq.1 hname).symm

end Assembly

/-! ## Declarations within modules -/

/-- A function of a unit is the one with an index of a module: it stands behind the imported functions in the
place that it has among the functions of the unit, with the declared type.  Its body is what lowering it gives
over the segment that the functions before it leave. -/
def Wasm.Module.DefinesFunction (m : Module) (scope : Scope) (traced : Bool) (u : SourceUnit) (f : Function)
    (index : Nat) : Prop :=
  ∃ q type body before start stop, u.functions[q]? = some f ∧ index = m.functionImports.length + q ∧
    m.functions[q]? = some type ∧ m.types[type]? = some f.type ∧ m.bodies[q]? = some body ∧
    Assembly.bodies scope traced (u.functions.take q) .empty = .ok before start ∧
    f.lower scope traced start = .ok body stop

/-- A global is written with a type of a kind, and as one that never changes. -/
def Wasm.GlobalDef.IsConstant (d : GlobalDef) (k : Kind) : Prop :=
  ∃ type, Encode.globalDef d = type ++ Encode.constExpr d.init ∧
    Reads Reader.globalType type fun t => t.type = .ofKind k ∧ t.isMutable = false

/-- An import is written as a global of a kind, and as one that never changes. -/
def Import.IsConstant (i : Import) (k : Kind) : Prop :=
  ∃ names type, Encode.importEntry i = names ++ type ∧
    Reads Reader.itemType type fun t => ∃ g, t = .global g ∧ g.type = .ofKind k ∧ g.isMutable = false

/-- A global of a unit is the one with an index of a module: it stands behind the imported globals in the
place that it has among the globals of the unit, starts as declared, and has the declared kind for good. -/
def Wasm.Module.DefinesGlobal (m : Module) (scope : Scope) (u : SourceUnit) (g : Global) (index : Nat) : Prop :=
  ∃ q d, u.globals[q]? = some g ∧ index = m.globalImports.length + q ∧ m.globals[q]? = some d ∧
    Assembly.globalDef scope g = .ok d ∧ d.IsConstant g.width.kind

/-- An export of the module of a unit provides an import of a later module: both are of one declaration,
which the export's index stands for, and the import has the type of that declaration. -/
inductive Provides (scope : Scope) (traced : Bool) (u : SourceUnit) (provider user : Module) (i : Import)
    (e : Export) : Prop
  | function {f : Function} {type index : Nat} :
    i = ⟨u.name, f.name, .function type, true⟩ → e = ⟨f.name, .function, index⟩ →
    provider.DefinesFunction scope traced u f index → user.types[type]? = some f.type →
    Provides scope traced u provider user i e
  | global {g : Global} {index : Nat} :
    i = ⟨u.name, g.name, .global g.width.kind, true⟩ → e = ⟨g.name, .global, index⟩ →
    provider.DefinesGlobal scope u g index → i.IsConstant g.width.kind →
    Provides scope traced u provider user i e

/-- **Defined globals never change.** -/
theorem Wasm.GlobalDef.isConstant (d : GlobalDef) : d.IsConstant d.kind := by
  refine ⟨[kindByte d.kind, 0x00], rfl, (Reads.globalType d.kind).mono ?_⟩
  rintro _ rfl
  exact ⟨rfl, rfl⟩

/-- **Imported globals never change.** -/
theorem Import.isConstant {i : Import} {k : Kind} (h : i.entity = .global k) : i.IsConstant k := by
  refine ⟨Encode.name i.owner ++ Encode.name i.name, Encode.entity (.global k), ?_, ?_⟩
  · rw [Encode.importEntry, h]
  · refine (Reads.itemType (e := .global k) (show EntityFits [] (.global k) from trivial) (Nat.zero_le _)).mono ?_
    rintro _ rfl
    exact ⟨.ofKind k, rfl, rfl, rfl⟩

/-- **The type of a function of a unit** comes behind the types before the unit. -/
theorem LinkState.types_own (s : LinkState) {u : SourceUnit} {q : Nat} {f : Function}
    (hf : u.functions[q]? = some f) : (s.extend u).types[s.types.length + q]? = some f.type := by
  show (s.types ++ u.functions.map Function.type)[_]? = _
  rw [List.getElem?_append_right (Nat.le_add_right ..), Nat.add_sub_cancel_left, List.getElem?_map, hf]
  rfl

section Linked

variable {config : Config} {units : List SourceUnit} {p : Program} {j : Nat} {u : SourceUnit} {a : Assembled}
  {scope : Scope}

/-- **The functions of a unit are defined in its module,** in order. -/
theorem definesFunction_of_link (h : link config units = .ok p) (hu : units[j]? = some u)
    (ha : p.modules[j]? = some a)
    (hs : Scope.ofUnit (.after config.minPages (units.take j)) u = .ok scope) {q : Nat} {f : Function}
    (hf : u.functions[q]? = some f) :
    a.code.DefinesFunction scope config.traced u f (a.code.functionImports.length + q) := by
  have hal := (linked_of_link h j).aligned
  have hcount : a.code.functionImports.length = (LinkState.after config.minPages (units.take j)).types.length := by
    rw [Module.functionImports, imports_of_link h hu ha, hal.types, List.length_map]
    exact (congrArg List.length hal.imports).trans (Offer.length_toImports ..)
  have hfunction := functions_of_link h hu ha hf
  obtain ⟨_, bodies, _, _, _, hs', hb, -, -, hcode, -⟩ := assemble_eq_ok ((assemble_of_link h).2 j u a hu ha)
  obtain rfl := Except.ok.inj (hs.symm.trans hs')
  obtain ⟨body, start, stop, hbody, hbefore, hlower, -⟩ :=
    Assembly.body_at (Assembly.bodies_of_lowerFunctions hb) hf
  refine ⟨q, _, body, _, start, stop, hf, rfl, hfunction, ?_, ?_, hbefore, hlower⟩
  · rw [hcount, hcode]
    exact LinkState.types_own _ hf
  · rw [hcode]
    exact hbody

/-- **The globals of a unit are defined in its module,** in order. -/
theorem definesGlobal_of_link (h : link config units = .ok p) (hu : units[j]? = some u)
    (ha : p.modules[j]? = some a)
    (hs : Scope.ofUnit (.after config.minPages (units.take j)) u = .ok scope) {q : Nat} {g : Global}
    (hg : u.globals[q]? = some g) :
    a.code.DefinesGlobal scope u g (a.code.globalImports.length + q) := by
  obtain ⟨_, _, _, globals, _, hs', -, hdefs, -, hcode, -⟩ :=
    assemble_eq_ok ((assemble_of_link h).2 j u a hu ha)
  obtain rfl := Except.ok.inj (hs.symm.trans hs')
  have hdef := congrArg (·[q]?) (Assembly.map_of_globalDefs hdefs)
  simp only [List.getElem?_map, hg, Option.map_some] at hdef
  obtain ⟨d, hd, hok⟩ := Option.map_eq_some_iff.1 hdef.symm
  have hkind : d.kind = g.width.kind := by
    obtain ⟨_, -, hd⟩ := ok_of_bind hok.symm
    cases hd
    rfl
  refine ⟨q, d, hg, rfl, ?_, hok.symm, hkind ▸ d.isConstant⟩
  rw [hcode, List.getElem?_append_left (List.getElem?_eq_some_iff.1 hd).1, hd]

end Linked

/-! ## What units bring into later modules -/

/-- The imports that a unit of a link brings into the modules of the units behind it. -/
def Link.contribution (minPages : Nat) (units : List SourceUnit) (j : Nat) : List Import :=
  (units[j]?).elim [] fun u =>
    Assembly.declImports u.name (LinkState.after minPages (units.take j)).types.length u.decls

/-- **The imports of the states along a link** are those of the loader and what the units bring, in order. -/
theorem LinkState.imports_after (minPages : Nat) (units : List SourceUnit) (k : Nat) :
    (after minPages (units.take k)).imports =
      (base minPages).imports ++ (List.range k).flatMap (Link.contribution minPages units) := by
  induction k with
  | zero => rfl
  | succ k ih =>
    rw [List.range_succ, List.flatMap_append, List.flatMap_singleton, ← List.append_assoc, ← ih]
    cases hu : units[k]? with
    | none => simp [List.take_add_one, Link.contribution, hu]
    | some u =>
      rw [after_take_succ hu, Link.contribution, hu]
      rfl

/-- **An assembled unit** has the name of the unit. -/
theorem name_of_assemble {config : Config} {state next : LinkState} {u : SourceUnit} {a : Assembled}
    (h : assemble config state u = .ok (a, next)) : a.name = u.name := by
  obtain ⟨_, _, _, _, _, -, -, -, -, -, hname, -⟩ := assemble_eq_ok h
  exact hname

section Contribution

variable {config : Config} {units : List SourceUnit} {p : Program} {j k : Nat} {u : SourceUnit}
  {a b : Assembled} {scope : Scope} {i : Import}

/-- **A module imports what the loader supplies and what the units before bring.** -/
theorem imports_eq_contributions (h : link config units = .ok p) (hb : p.modules[k]? = some b) :
    b.code.imports = (LinkState.base config.minPages).imports ++
      (List.range k).flatMap (Link.contribution config.minPages units) := by
  have hk : k < units.length := (assemble_of_link h).1 ▸ (List.getElem?_eq_some_iff.1 hb).1
  rw [imports_of_link h (List.getElem?_eq_getElem hk) hb, LinkState.imports_after]

/-- **Each module before another** is that of a unit, under the unit's name and with the exports of its scope. -/
theorem exists_provider (h : link config units = .ok p) (hb : p.modules[k]? = some b) (hj : j < k) :
    ∃ u a scope, units[j]? = some u ∧ p.modules[j]? = some a ∧ a.name = u.name ∧
      Scope.ofUnit (.after config.minPages (units.take j)) u = .ok scope ∧
      Assembly.exports scope u = .ok a.code.exports := by
  obtain ⟨hlength, hall⟩ := assemble_of_link h
  have ha : j < p.modules.length := Nat.lt_trans hj (List.getElem?_eq_some_iff.1 hb).1
  have hu : j < units.length := hlength ▸ ha
  have hassemble := hall j _ _ (List.getElem?_eq_getElem hu) (List.getElem?_eq_getElem ha)
  obtain ⟨scope, _, _, _, _, hs, -, -, he, hcode, -⟩ := assemble_eq_ok hassemble
  refine ⟨_, _, scope, List.getElem?_eq_getElem hu, List.getElem?_eq_getElem ha, name_of_assemble hassemble, hs, ?_⟩
  rw [he, hcode]

/-- **What a unit brings** is an import of one of its functions, with the next type, or of one of its
globals. -/
theorem of_mem_contribution (hu : units[j]? = some u)
    (hi : i ∈ Link.contribution config.minPages units j) :
    (∃ (q : Nat) (f : Function), u.functions[q]? = some f ∧
      i = ⟨u.name, f.name, .function ((LinkState.after config.minPages (units.take j)).types.length + q),
        f.isPublic⟩) ∨
    ∃ (q : Nat) (g : Global), u.globals[q]? = some g ∧
      i = ⟨u.name, g.name, .global g.width.kind, g.isPublic⟩ := by
  rw [Link.contribution, hu] at hi
  exact Assembly.of_mem_declImports hi

/-- **The type of a function of a unit** has the same index in every later module. -/
theorem types_later (h : link config units = .ok p) (hu : units[j]? = some u) (hb : p.modules[k]? = some b)
    (hj : j < k) {q : Nat} {f : Function} (hf : u.functions[q]? = some f) :
    b.code.types[(LinkState.after config.minPages (units.take j)).types.length + q]? = some f.type := by
  have hk : k < units.length := (assemble_of_link h).1 ▸ (List.getElem?_eq_some_iff.1 hb).1
  obtain ⟨_, _, _, _, _, -, -, -, -, hcode, -⟩ :=
    assemble_eq_ok ((assemble_of_link h).2 k _ b (List.getElem?_eq_getElem hk) hb)
  have hown := (LinkState.after config.minPages (units.take j)).types_own hf
  have hgrown := (LinkState.after_grows config.minPages units hj).1
  rw [LinkState.after_take_succ hu] at hgrown
  obtain ⟨more, hmore⟩ := hgrown.trans (List.prefix_append _ (List.map Function.type units[k].functions))
  rw [hcode]
  show (LinkState.types _ ++ units[k].functions.map Function.type)[_]? = _
  rw [← hmore, List.getElem?_append_left (List.getElem?_eq_some_iff.1 hown).1, hown]

/-- **The globals in the scope of a unit** are the imported and the declared ones of its module. -/
theorem length_globals_of_link (h : link config units = .ok p) (hu : units[j]? = some u)
    (ha : p.modules[j]? = some a)
    (hs : Scope.ofUnit (.after config.minPages (units.take j)) u = .ok scope) :
    scope.globals.length = a.code.globalImports.length + u.globals.length := by
  have hcount := congrArg List.length (LinkState.after config.minPages (units.take j)).names_globalImports
  rw [List.length_map, List.length_map] at hcount
  rw [Scope.eq_of_ofUnit (linked_of_link h j).aligned hs, List.length_append, List.length_map, List.length_map,
    hcount, Module.globalImports, imports_of_link h hu ha]
  rfl

/-- **Exported imports are provided by their owners.**  A module of a link imports what the loader supplies
and what the units before it bring, in order.  Of what a unit brings, each import that is marked as exported
has one export under its name in the module of that unit.  The export is of the same sort, its index is that
of the place where the unit declares what the import is of, and import and declaration agree: in the signature
of a function, in the kind of a global, and in that a global never changes. -/
theorem Link.exported_imports (h : link config units = .ok p) (hb : p.modules[k]? = some b) :
    b.code.imports = (LinkState.base config.minPages).imports ++
      (List.range k).flatMap (contribution config.minPages units) ∧
    ∀ j < k, ∃ u a scope, units[j]? = some u ∧ p.modules[j]? = some a ∧ a.name = u.name ∧
      Scope.ofUnit (.after config.minPages (units.take j)) u = .ok scope ∧
      ∀ i ∈ contribution config.minPages units j, i.exported = true →
        i.owner = a.name ∧ ∃ e, a.code.exports.filter (fun e => e.name == i.name) = [e] ∧
          Provides scope config.traced u a.code b.code i e := by
  refine ⟨imports_eq_contributions h hb, fun j hj => ?_⟩
  obtain ⟨u, a, scope, hu, ha, hname, hs, he⟩ := exists_provider h hb hj
  refine ⟨u, a, scope, hu, ha, hname, hs, fun i hi hexported => ?_⟩
  have hal := (linked_of_link h j).aligned
  have himports := imports_of_link h hu ha
  rw [hname]
  rcases of_mem_contribution hu hi with ⟨q, f, hf, rfl⟩ | ⟨q, g, hg, rfl⟩
  · have hdecl : Decl.function f ∈ u.decls := SourceUnit.mem_functions.1 (List.mem_of_getElem? hf)
    have hindex : scope.function? f.name = some (a.code.functionImports.length + q) := by
      rw [Module.functionImports, himports]
      have hcount := (congrArg List.length hal.imports).trans (Offer.length_toImports ..)
      exact (Scope.function?_own hal hs hf).trans (congrArg (fun n => some (n + q)) hcount.symm)
    have hexport := Assembly.export?_function hexported hindex
    refine ⟨rfl, _, Assembly.filter_exports_public hal hs he hdecl hexport, ?_⟩
    refine .function ?_ rfl (definesFunction_of_link h hu ha hs hf) (types_later h hu hb hj hf)
    rw [show f.isPublic = true from hexported]
  · have hdecl : Decl.global g ∈ u.decls := SourceUnit.mem_globals.1 (List.mem_of_getElem? hg)
    have hindex : scope.global? g.name = some (a.code.globalImports.length + q) := by
      rw [Module.globalImports, himports]
      exact Scope.global?_own hal hs hg
    have hexport := Assembly.export?_global hexported hindex
    refine ⟨rfl, _, Assembly.filter_exports_public hal hs he hdecl hexport, ?_⟩
    refine .global ?_ rfl (definesGlobal_of_link h hu ha hs hg) (Import.isConstant rfl)
    rw [show g.isPublic = true from hexported]

/-- **The counter provides what the client imports of it:** the function under the type that the client knows
for it, and the limit. -/
theorem Tally.exported_imports_client :
    ∃ p a b scope, link { validated := false } [counter, client] = .ok p ∧
      p.modules[0]? = some a ∧ p.modules[1]? = some b ∧
      (∃ e, a.code.exports.filter (fun e => e.name == "next") = [e] ∧
        Provides scope false counter a.code b.code ⟨"counter", "next", .function 1, true⟩ e) ∧
      ∃ e, a.code.exports.filter (fun e => e.name == "limit") = [e] ∧
        Provides scope false counter a.code b.code ⟨"counter", "limit", .global .i32, true⟩ e := by
  obtain ⟨p, b, hp, hb⟩ : ∃ p b, link { validated := false } [counter, client] = .ok p ∧
      p.modules[1]? = some b := ⟨_, _, rfl, rfl⟩
  obtain ⟨-, hall⟩ := Link.exported_imports hp hb
  obtain ⟨_, a, scope, ⟨⟩, ha, -, -, hprovided⟩ := hall 0 Nat.zero_lt_one
  obtain ⟨-, hnext⟩ := hprovided ⟨"counter", "next", .function 1, true⟩ (by decide) rfl
  obtain ⟨-, hlimit⟩ := hprovided ⟨"counter", "limit", .global .i32, true⟩ (by decide) rfl
  exact ⟨p, a, b, scope, hp, ha, hb, hnext, hlimit⟩

/-- **Unexported imports are not provided, but for one name.**  Each import that a unit brings into later
modules and that is not marked as exported has no export under its name in the module of that unit, unless the
name is that of the segment's size.  Then the one export under it is the size, and not the declaration. -/
theorem Link.unexported_imports (h : link config units = .ok p) (hb : p.modules[k]? = some b) :
    b.code.imports = (LinkState.base config.minPages).imports ++
      (List.range k).flatMap (contribution config.minPages units) ∧
    ∀ j < k, ∃ u a, units[j]? = some u ∧ p.modules[j]? = some a ∧ a.name = u.name ∧
      a.code.globals[u.globals.length]? =
        some ⟨.i32, .const (.i32 (BitVec.ofNat 32 a.code.data.length))⟩ ∧
      ∀ i ∈ contribution config.minPages units j, i.exported = false →
        i.owner = a.name ∧ a.code.exports.filter (fun e => e.name == i.name) =
          if i.name = Loader.dataSize
          then [⟨Loader.dataSize, .global, a.code.globalImports.length + u.globals.length⟩] else [] := by
  refine ⟨imports_eq_contributions h hb, fun j hj => ?_⟩
  obtain ⟨u, a, scope, hu, ha, hname, hs, he⟩ := exists_provider h hb hj
  have hal := (linked_of_link h j).aligned
  have hlength := length_globals_of_link h hu ha hs
  refine ⟨u, a, hu, ha, hname, ?_, fun i hi hhidden => ?_⟩
  · obtain ⟨_, _, segment, globals, _, -, -, hdefs, -, hcode, -⟩ :=
      assemble_eq_ok ((assemble_of_link h).2 j u a hu ha)
    have hcount := congrArg List.length (Assembly.kinds_globalDefs hdefs)
    rw [List.length_map, List.length_map] at hcount
    rw [hcode, ← hcount]
    simp [Assembly.sizeGlobal, Segment.length_bytes]
  rw [hname, ← hlength]
  rcases of_mem_contribution hu hi with ⟨q, f, hf, rfl⟩ | ⟨q, g, hg, rfl⟩
  · have hdecl : Decl.function f ∈ u.decls := SourceUnit.mem_functions.1 (List.mem_of_getElem? hf)
    exact ⟨rfl, Assembly.filter_exports_private hal hs he hdecl rfl hhidden⟩
  · have hdecl : Decl.global g ∈ u.decls := SourceUnit.mem_globals.1 (List.mem_of_getElem? hg)
    exact ⟨rfl, Assembly.filter_exports_private hal hs he hdecl rfl hhidden⟩

end Contribution

namespace Tally

/-- A unit that keeps two globals to itself, one of them under the name of the segment's size. -/
def keeper : SourceUnit where
  name := "keeper"
  decls := [
    .global { name := "data_size", isPublic := false, width := .u32, init := .literal .u32 "1" },
    .global { name := "secret", isPublic := false, width := .u32, init := .literal .u32 "2" }]

/-- A unit that copies a global by the name of the segment's size. -/
def copier : SourceUnit where
  name := "copier"
  decls := [.global { name := "copy", isPublic := true, width := .u32, init := .global "data_size" }]

/-- **Of what the keeper keeps to itself** a loader finds nothing under the one name, and the size of the
segment under the other. -/
theorem unexported_imports_keeper :
    ∃ p a b, link { validated := false } [keeper, copier] = .ok p ∧
      p.modules[0]? = some a ∧ p.modules[1]? = some b ∧
      a.code.exports.filter (fun e => e.name == "secret") = [] ∧
      a.code.exports.filter (fun e => e.name == "data_size") =
        [⟨"data_size", .global, a.code.globalImports.length + 2⟩] := by
  obtain ⟨p, b, hp, hb⟩ : ∃ p b, link { validated := false } [keeper, copier] = .ok p ∧
      p.modules[1]? = some b := ⟨_, _, rfl, rfl⟩
  obtain ⟨-, hall⟩ := Link.unexported_imports hp hb
  obtain ⟨_, a, ⟨⟩, ha, -, -, hhidden⟩ := hall 0 Nat.zero_lt_one
  obtain ⟨-, hsecret⟩ := hhidden ⟨"keeper", "secret", .global .i32, false⟩ (by decide) rfl
  obtain ⟨-, hsize⟩ := hhidden ⟨"keeper", "data_size", .global .i32, false⟩ (by decide) rfl
  exact ⟨p, a, b, hp, ha, hb, hsecret, hsize⟩

/-- **An unexported import can be satisfied.**  The copier imports the global that the keeper keeps to itself
under the name of the segment's size, and the keeper's module exports something under this name. -/
theorem satisfied_unexported :
    ∃ p a b, link {} [keeper, copier] = .ok p ∧ p.modules[0]? = some a ∧ p.modules[1]? = some b ∧
      a.name = "keeper" ∧ ⟨"keeper", "data_size", .global .i32, false⟩ ∈ b.code.imports ∧
      ∃ e ∈ a.code.exports, e.name = "data_size" := by
  have hlink : (link {} [keeper, copier]).toOption.any (fun p =>
      (p.modules[0]?).any (fun a => a.name == "keeper" && a.code.exports.any (·.name == "data_size")) &&
      (p.modules[1]?).any fun b =>
        b.code.imports.contains ⟨"keeper", "data_size", .global .i32, false⟩) = true := by
    decide +kernel
  obtain ⟨p, hp, hmodules⟩ := ok_of_any hlink
  obtain ⟨hfirst, hsecond⟩ := Bool.and_eq_true_iff.1 hmodules
  obtain ⟨a, ha, hkeeper⟩ := (Option.any_eq_true _ _).1 hfirst
  obtain ⟨b, hb, himport⟩ := (Option.any_eq_true _ _).1 hsecond
  obtain ⟨hname, hexport⟩ := Bool.and_eq_true_iff.1 hkeeper
  obtain ⟨e, he, hsize⟩ := List.any_eq_true.1 hexport
  exact ⟨p, a, b, hp, ha, hb, beq_iff_eq.1 hname, List.contains_iff_mem.1 himport, e, he, beq_iff_eq.1 hsize⟩

end Tally

end WasmLowering
