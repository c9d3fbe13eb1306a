/-
# Well-formed modules

A module is well formed by rules on its parts, before it is written as bytes:

| part      | rule                                                               |
|-----------|--------------------------------------------------------------------|
| functions | imported and defined ones name types of the module                 |
| memory    | exactly one, imported, of no more pages than addresses can reach   |
| globals   | start as a constant, or as an imported global, of their own kind   |
| exports   | have different names and are there                                 |
| bodies    | one for each defined function, with the type of the function       |
| data      | the first global, imported, has the address                        |

The limits of the checker on counts and sizes are told apart, as what a module
`IsWithinLimits`.

The module of an assembled unit is well formed.  That its functions have their
types comes from the alignment of link states, and that its bodies do from the
types of lowered code.
-/

import WasmLowering.Proofs.Alignment
import WasmLowering.Proofs.CodeTyping
import WasmLowering.Proofs.Constants
import WasmLowering.Wasm.Validate

namespace WasmLowering

namespace Entity

/-- The index of the type of a function. -/
def type? : Entity → Option Nat
  | function type => some type
  | _ => none

/-- The kind of a global. -/
def kind? : Entity → Option Kind
  | global kind => some kind
  | _ => none

/-- The least number of pages of a memory. -/
def pages? : Entity → Option Nat
  | memory minPages => some minPages
  | _ => none

end Entity

namespace Wasm

/-- The kind of a constant expression over imported globals. -/
def ConstExpr.HasKind (globals : List Kind) (k : Kind) : ConstExpr → Prop
  | const v => v.kind = k
  | globalGet i => globals[i]? = some k

namespace Module

variable (m : Module)

/-- The types of the imported functions, by index. -/
def importedFunctions : List Nat := m.imports.filterMap (·.entity.type?)

/-- The kinds of the imported globals. -/
def importedGlobals : List Kind := m.imports.filterMap (·.entity.kind?)

/-- The memories, each by its least number of pages. -/
def memories : List Nat := m.imports.filterMap (·.entity.pages?)

/-- The types of all functions, by index, the imported ones first. -/
def functionTypes : List Nat := m.importedFunctions ++ m.functions

/-- The kinds of all globals, the imported ones first. -/
def globalKinds : List Kind := m.importedGlobals ++ m.globals.map GlobalDef.kind

/-- The type with an index. -/
def typeAt (index : Nat) : FuncType := (m.types[index]?).getD ⟨[], []⟩

/-- What the code of a module may refer to. -/
def spaces : IndexSpaces := ⟨m.functionTypes.map m.typeAt, m.globalKinds⟩

/-- What an export names is there. -/
def Exports (e : Export) : Prop :=
  match e.sort with
  | .function => e.index < m.functionTypes.length
  | .global => e.index < m.globalKinds.length
  | _ => False

/-- A body has the type with an index. -/
def HasBody (type : Nat) (b : FuncBody) : Prop :=
  Code.HasType m.spaces ((m.typeAt type).params ++ b.locals) [(m.typeAt type).results] b.code []
    (m.typeAt type).results.reverse

/-- The rules on the parts of a module. -/
structure WellFormed : Prop where
  functions : ∀ t ∈ m.functionTypes, t < m.types.length
  memory : ∃ pages, m.memories = [pages] ∧ pages ≤ 65536
  globals : ∀ g ∈ m.globals, g.init.HasKind m.importedGlobals g.kind
  exports : ∀ e ∈ m.exports, m.Exports e
  exportNames : (m.exports.map Export.name).Nodup
  bodyCount : m.bodies.length = m.functions.length
  bodies : ∀ b ∈ m.functions.zip m.bodies, m.HasBody b.1 b.2
  dataStart : m.importedGlobals[Layout.dataStartGlobal]? = some .i32

/-- The sum of some sizes. -/
def total {α : Type} (size : α → Nat) : List α → Nat
  | [] => 0
  | a :: as => size a + total size as

/-- The number of words in the type of a function, by the index of its type. -/
def functionSize (type : Nat) : Nat :=
  1 + ((m.typeAt type).params.length + (m.typeAt type).results.length + 1)

/-- The number of words in the type of an import. -/
def importSize (i : Import) : Nat := i.entity.type?.elim 1 m.functionSize

/-- The number of words in the type of an export. -/
def exportSize (e : Export) : Nat :=
  match e.sort with
  | .function => m.functionSize ((m.functionTypes[e.index]?).getD 0)
  | _ => 1

/-- The limits of the checker on counts and sizes. -/
structure IsWithinLimits : Prop where
  /-- Sizes are numbers of 32 bits. -/
  size : m.encode.length < 4294967296
  types : m.types.length ≤ ModuleContext.itemLimit
  arity : ∀ t ∈ m.types, t.params.length ≤ Reader.arityLimit ∧ t.results.length ≤ Reader.arityLimit
  imports : m.imports.length ≤ ModuleContext.itemLimit
  functions : m.functionTypes.length ≤ ModuleContext.itemLimit
  globals : m.globalKinds.length ≤ ModuleContext.itemLimit
  exports : m.exports.length ≤ ModuleContext.itemLimit
  importNames : ∀ i ∈ m.imports,
    (utf8 i.owner).length ≤ Reader.nameLimit ∧ (utf8 i.name).length ≤ Reader.nameLimit
  exportNames : ∀ e ∈ m.exports, (utf8 e.name).length ≤ Reader.nameLimit
  locals : ∀ b ∈ m.functions.zip m.bodies,
    (m.typeAt b.1).params.length + b.2.locals.length ≤ Validate.localLimit
  typeSize : 1 + total m.importSize m.imports + total m.exportSize m.exports <
    ModuleContext.typeSizeLimit

instance : Decidable m.IsWithinLimits :=
  decidable_of_iff
    (m.encode.length < 4294967296 ∧ m.types.length ≤ ModuleContext.itemLimit ∧
      (∀ t ∈ m.types, t.params.length ≤ Reader.arityLimit ∧ t.results.length ≤ Reader.arityLimit) ∧
      m.imports.length ≤ ModuleContext.itemLimit ∧ m.functionTypes.length ≤ ModuleContext.itemLimit ∧
      m.globalKinds.length ≤ ModuleContext.itemLimit ∧ m.exports.length ≤ ModuleContext.itemLimit ∧
      (∀ i ∈ m.imports,
        (utf8 i.owner).length ≤ Reader.nameLimit ∧ (utf8 i.name).length ≤ Reader.nameLimit) ∧
      (∀ e ∈ m.exports, (utf8 e.name).length ≤ Reader.nameLimit) ∧
      (∀ b ∈ m.functions.zip m.bodies,
        (m.typeAt b.1).params.length + b.2.locals.length ≤ Validate.localLimit) ∧
      1 + total m.importSize m.imports + total m.exportSize m.exports < ModuleContext.typeSizeLimit)
    ⟨fun ⟨h₁, h₂, h₃, h₄, h₅, h₆, h₇, h₈, h₉, h₁₀, h₁₁⟩ => ⟨h₁, h₂, h₃, h₄, h₅, h₆, h₇, h₈, h₉, h₁₀, h₁₁⟩,
      fun ⟨h₁, h₂, h₃, h₄, h₅, h₆, h₇, h₈, h₉, h₁₀, h₁₁⟩ =>
        ⟨h₁, h₂, h₃, h₄, h₅, h₆, h₇, h₈, h₉, h₁₀, h₁₁⟩⟩

variable {m}

/-- **There is room for the imported functions and for the defined ones.** -/
theorem IsWithinLimits.allFunctions (hl : m.IsWithinLimits) :
    m.importedFunctions.length + m.functions.length ≤ ModuleContext.itemLimit := by
  rw [← List.length_append]
  exact hl.functions

/-- **There is room for the imported globals and for the defined ones.** -/
theorem IsWithinLimits.allGlobals (hl : m.IsWithinLimits) :
    m.importedGlobals.length + m.globals.length ≤ ModuleContext.itemLimit := by
  rw [← List.length_map GlobalDef.kind, ← List.length_append]
  exact hl.globals

end Module

end Wasm

open Wasm

/-- What the code of a unit may refer to: what is imported and what the unit declares, with the global for
the size of its segment last. -/
def LinkState.spaces (state : LinkState) (u : SourceUnit) : IndexSpaces where
  functions := state.types ++ u.functions.map Function.type
  globals := state.globals.map Prod.snd ++ u.globals.map (fun g => g.width.kind) ++ [.i32]

/-! ## Lists that a computation makes of lists -/

/-- **Going through a list gives one result for each item.** -/
theorem map_of_mapM {ε α β : Type} {f : α → Except ε β} :
    {as : List α} → {bs : List β} → as.mapM f = .ok bs → as.map f = bs.map .ok
  | [], _, h => by
    cases h
    rfl
  | a :: as, bs, h => by
    rw [List.mapM_cons] at h
    obtain ⟨b, ha, h⟩ := ok_of_bind h
    obtain ⟨rest, hrest, h⟩ := ok_of_bind h
    cases h
    rw [List.map_cons, List.map_cons, ha, map_of_mapM hrest]

/-- **What the results have of the items** they have in order. -/
theorem map_eq_of_map_ok {ε α β γ : Type} {f : α → Except ε β} {g : β → γ} {h : α → γ} :
    {as : List α} → {bs : List β} → as.map f = bs.map .ok →
      (∀ a ∈ as, ∀ b, f a = .ok b → g b = h a) → bs.map g = as.map h
  | [], [], _, _ => rfl
  | a :: as, b :: bs, hmap, heq => by
    obtain ⟨hab, hrest⟩ := List.cons.inj hmap
    obtain ⟨ha, has⟩ := List.forall_mem_cons.1 heq
    rw [List.map_cons, List.map_cons, ha b hab, map_eq_of_map_ok hrest has]

/-- **The last one of some items is one of them.** -/
theorem lastIdx?_lt {α : Type} {p : α → Bool} : {as : List α} → {i : Nat} → lastIdx? p as = some i →
    i < as.length
  | a :: as, i, h => by
    rw [lastIdx?] at h
    cases hrest : lastIdx? p as with
    | some j =>
      rw [hrest] at h
      cases h
      exact Nat.succ_lt_succ (lastIdx?_lt hrest)
    | none =>
      rw [hrest] at h
      obtain ⟨-, ⟨⟩⟩ := Option.ite_none_right_eq_some.1 h
      exact Nat.zero_lt_succ _

/-! ## What a unit may refer to -/

section Unit

variable {os : List Offer} {state : LinkState} {u : SourceUnit} {scope : Scope}

/-- **The scope of a unit over an aligned state,** part by part. -/
theorem Scope.eq_of_ofUnit (h : state.Aligned os) (hs : Scope.ofUnit state u = .ok scope) :
    scope = ⟨os.map Offer.callable ++ u.functions.map Function.callable,
      state.globals.map Prod.fst ++ u.globals.map Global.name, os.length, state.globals.length⟩ := by
  rw [Scope.ofUnit_eq h] at hs
  obtain ⟨rfl, -⟩ := Scope.addDecls_eq_ok hs
  rfl

/-- **The scope of a unit tells the results of what it may call,** and the first global is an address if
it is one in the state. -/
theorem LinkState.fit_spaces (h : state.Aligned os) (hs : Scope.ofUnit state u = .ok scope)
    (hstart : (state.globals.map Prod.snd)[Layout.dataStartGlobal]? = some .i32) :
    (state.spaces u).Fit scope where
  hasResult {i t} ht := by
    have hresults : scope.functions.map Callable.hasResult =
        (state.spaces u).functions.map (!·.results.isEmpty) := by
      rw [Scope.eq_of_ofUnit h hs, LinkState.spaces, h.types]
      simp [Offer.callable, Function.callable, Function.type, Function.comp_def]
    have hi := congrArg (·[i]?) hresults
    simp only [List.getElem?_map, ht, Option.map_some] at hi
    obtain ⟨c, hc, hcr⟩ := Option.map_eq_some_iff.1 hi
    rw [Scope.hasResult, hc]
    exact hcr
  dataStart := by
    have hpos := (List.getElem?_eq_some_iff.1 hstart).1
    rw [LinkState.spaces, List.append_assoc, List.getElem?_append_left hpos, hstart]

end Unit

/-! ## Assembled units -/

/-- **The functions among imports have types in order,** and so have imports and defined functions. -/
theorem LinkState.Aligned.types_imports {os : List Offer} {state : LinkState} (h : state.Aligned os) :
    state.imports.filterMap (·.entity.type?) = List.range' 0 os.length := by
  have hfilter : state.imports.filterMap (·.entity.type?) =
      state.functionImports.filterMap (·.entity.type?) := by
    rw [LinkState.functionImports, List.filterMap_filter]
    refine congrArg (List.filterMap · _) (funext fun i => ?_)
    cases i.entity <;> rfl
  have hoffers : ∀ (os : List Offer) (first : Nat),
      (Offer.toImports first os).filterMap (·.entity.type?) = List.range' first os.length := by
    intro os
    induction os with
    | nil => exact fun _ => rfl
    | cons o os ih =>
      intro first
      exact congrArg (first :: ·) (ih (first + 1))
  rw [hfilter, h.imports, hoffers]

/-- **The imports of a state that is reached** are those of the loader and then no memories. -/
theorem Linked.imports {minPages : Nat} {units : List SourceUnit} {state : LinkState}
    (h : Linked minPages units state) :
    ∃ more, state.imports = (LinkState.base minPages).imports ++ more ∧
      more.filterMap (·.entity.pages?) = [] := by
  have hdecls : ∀ (owner : String) (first : Nat) (ds : List Decl),
      (Assembly.declImports owner first ds).filterMap (·.entity.pages?) = [] := by
    intro owner first ds
    induction ds generalizing first with
    | nil => rfl
    | cons d ds ih => cases d with
      | function f => exact ih (first + 1)
      | global g => exact ih first
      | type n => exact ih first
  induction h with
  | base => exact ⟨[], rfl, rfl⟩
  | @unit _ state _ _ u _ _ ha ih =>
    obtain rfl := next_of_assemble ha
    obtain ⟨more, himports, hmore⟩ := ih
    refine ⟨more ++ Assembly.declImports u.name state.types.length u.decls, ?_, ?_⟩
    · rw [LinkState.extend, himports, List.append_assoc]
    · rw [List.filterMap_append, hmore, hdecls]
      rfl

namespace Assembly

variable {scope : Scope} {u : SourceUnit}

/-- **The bodies of functions are lowered in turn,** over one segment. -/
theorem bodies_cons_eq_ok {traced : Bool} {f : Function} {fs : List Function} {bs : List FuncBody}
    {seg seg' : Segment} : bodies scope traced (f :: fs) seg = .ok bs seg' ↔
      ∃ b mid rest, f.lower scope traced seg = .ok b mid ∧ bodies scope traced fs mid = .ok rest seg' ∧
        bs = b :: rest := by
  cases hf : f.lower scope traced seg with
  | error cause stop => simp [bodies_of_error hf]
  | ok b mid =>
    rw [bodies_of_ok hf, Lower.map_eq_ok]
    constructor
    · rintro ⟨rest, hrest, rfl⟩
      exact ⟨b, mid, rest, rfl, hrest, rfl⟩
    · rintro ⟨_, _, rest, ⟨⟩, hrest, rfl⟩
      exact ⟨rest, hrest, rfl⟩

/-- **Each body is the lowered function of its place.** -/
theorem lower_of_bodies {traced : Bool} : {fs : List Function} → {bs : List FuncBody} →
    {seg seg' : Segment} → bodies scope traced fs seg = .ok bs seg' →
      bs.length = fs.length ∧
      ∀ b ∈ fs.zip bs, ∃ start stop, b.1.lower scope traced start = .ok b.2 stop
  | [], _, _, _, h => by
    cases h
    exact ⟨rfl, nofun⟩
  | f :: fs, bs, seg, seg', h => by
    obtain ⟨b, mid, rest, hlower, hrest, rfl⟩ := bodies_cons_eq_ok.1 h
    obtain ⟨hlength, hall⟩ := lower_of_bodies hrest
    refine ⟨congrArg (· + 1) hlength, ?_⟩
    rw [List.zip_cons_cons]
    exact List.forall_mem_cons.2 ⟨⟨seg, mid, hlower⟩, hall⟩

/-- **Each function is lowered over the segment that the functions before it leave,** and the functions behind
it start from what it leaves. -/
theorem body_at {traced : Bool} {fs : List Function} {bs : List FuncBody} {seg seg' : Segment}
    (h : bodies scope traced fs seg = .ok bs seg') {q : Nat} {f : Function} (hf : fs[q]? = some f) :
    ∃ body start stop, bs[q]? = some body ∧ bodies scope traced (fs.take q) seg = .ok (bs.take q) start ∧
      f.lower scope traced start = .ok body stop ∧
      bodies scope traced (fs.drop (q + 1)) stop = .ok (bs.drop (q + 1)) seg' := by
  induction fs generalizing seg bs q with
  | nil => cases hf
  | cons g fs ih =>
    obtain ⟨b, mid, rest, hlower, hrest, rfl⟩ := bodies_cons_eq_ok.1 h
    cases q with
    | zero =>
      obtain rfl := Option.some.inj hf
      exact ⟨b, seg, mid, rfl, rfl, hlower, hrest⟩
    | succ q =>
      obtain ⟨body, start, stop, hbody, hbefore, hlowered, hbehind⟩ := ih hrest hf
      exact ⟨body, start, stop, hbody, bodies_cons_eq_ok.2 ⟨b, mid, _, hlower, hbefore, rfl⟩, hlowered, hbehind⟩

/-- **The functions of a unit** are lowered in order, from the empty segment on. -/
theorem bodies_of_lowerFunctions {traced : Bool} {bs : List FuncBody} {segment : Segment}
    (h : lowerFunctions scope traced u = .ok (bs, segment)) :
    bodies scope traced u.functions .empty = .ok bs segment := by
  unfold lowerFunctions at h
  split at h
  · rename_i hbodies
    cases h
    exact hbodies
  · cases h

/-- **Each function of a unit** is lowered to the body of its place. -/
theorem lower_of_lowerFunctions {traced : Bool} {bodies : List FuncBody} {segment : Segment}
    (h : lowerFunctions scope traced u = .ok (bodies, segment)) :
    bodies.length = u.functions.length ∧
    ∀ b ∈ u.functions.zip bodies, ∃ start stop, b.1.lower scope traced start = .ok b.2 stop :=
  lower_of_bodies (bodies_of_lowerFunctions h)

/-- **Each global is defined by its declaration.** -/
theorem map_of_globalDefs {globals : List GlobalDef} (h : globalDefs scope u = .ok globals) :
    u.globals.map (globalDef scope) = globals.map .ok := by
  unfold globalDefs at h
  cases hm : u.globals.mapM (globalDef scope) with
  | error f => rw [hm] at h; cases h
  | ok gs =>
    rw [hm] at h
    cases h
    exact map_of_mapM hm

/-- **The defined globals have the kinds of their declarations.** -/
theorem kinds_globalDefs {globals : List GlobalDef} (h : globalDefs scope u = .ok globals) :
    globals.map GlobalDef.kind = u.globals.map (·.width.kind) := by
  refine map_eq_of_map_ok (map_of_globalDefs h) fun g _ d hd => ?_
  obtain ⟨init, -, hd⟩ := ok_of_bind hd
  cases hd
  rfl

/-- **A defined global starts as a word of its kind,** if it starts as an imported global only of that
kind. -/
theorem hasKind_of_globalDef {g : Global} {d : GlobalDef} {kinds : List Kind}
    (h : globalDef scope g = .ok d)
    (hinit : ∀ name i, g.init = .global name → scope.global? name = some i →
      i < scope.importedGlobals → kinds[i]? = some g.width.kind) :
    d.init.HasKind kinds d.kind := by
  obtain ⟨init, hi, h⟩ := ok_of_bind h
  cases h
  cases Starts.of_ofGlobal hi with
  | value _ hkind => exact hkind
  | copy hname hindex hlt => exact hinit _ _ hname hindex hlt

/-- What an export of a declaration names is in scope. -/
def InScope (scope : Scope) (e : Export) : Prop :=
  e.sort = .function ∧ e.index < scope.functions.length ∨
    e.sort = .global ∧ e.index < scope.globals.length

/-- **What a declaration exports** has its name and is in scope, and the declaration is public. -/
theorem export?_eq_some {d : Decl} {e : Export} (h : export? scope d = .ok (some e)) :
    d.isPublic = true ∧ d.isSymbol = true ∧ e.name = d.name ∧ InScope scope e := by
  unfold export? at h
  split at h
  · rename_i hpublic
    refine ⟨hpublic, ?_⟩
    cases d with
    | function f =>
      obtain ⟨i, hs, h⟩ := ok_of_bind h
      cases h
      exact ⟨rfl, rfl, .inl ⟨rfl, lastIdx?_lt (Scope.function_eq_ok.1 hs)⟩⟩
    | global g =>
      obtain ⟨i, hs, h⟩ := ok_of_bind h
      cases h
      exact ⟨rfl, rfl, .inr ⟨rfl, lastIdx?_lt (Scope.global_eq_ok.1 hs)⟩⟩
    | type n => cases h
  · cases h

/-- **The exports of declarations** take their names from them in order, and only from public ones. -/
theorem exports_of_decls : {ds : List Decl} → {own : List (Option Export)} →
    ds.map (export? scope) = own.map .ok →
      List.Sublist (own.reduceOption.map Export.name) ((ds.filter Decl.isSymbol).map Decl.name) ∧
      ∀ e ∈ own.reduceOption, InScope scope e ∧ ∃ d ∈ ds, d.isPublic = true ∧ e.name = d.name
  | [], [], _ => ⟨.slnil, nofun⟩
  | d :: ds, none :: own, h => by
    obtain ⟨hd, hds⟩ := List.cons.inj h
    obtain ⟨hsub, hall⟩ := exports_of_decls hds
    refine ⟨?_, fun e he => ?_⟩
    · refine hsub.trans (List.Sublist.map _ (List.Sublist.filter _ (List.sublist_cons_self ..)))
    · obtain ⟨hscope, d', hd', hpublic, hname⟩ := hall e he
      exact ⟨hscope, d', List.mem_cons_of_mem _ hd', hpublic, hname⟩
  | d :: ds, some e :: own, h => by
    obtain ⟨hd, hds⟩ := List.cons.inj h
    obtain ⟨hsub, hall⟩ := exports_of_decls hds
    obtain ⟨hpublic, hsymbol, hname, hscope⟩ := export?_eq_some hd
    refine ⟨?_, List.forall_mem_cons.2 ⟨⟨hscope, d, List.mem_cons_self, hpublic, hname⟩, fun e he => ?_⟩⟩
    · rw [List.filter_cons_of_pos hsymbol, List.map_cons, ← hname]
      exact hsub.cons_cons _
    · obtain ⟨hscope, d', hd', hpublic, hname⟩ := hall e he
      exact ⟨hscope, d', List.mem_cons_of_mem _ hd', hpublic, hname⟩

end Assembly

section Assembled

variable {minPages : Nat} {config : Config} {units : List SourceUnit} {state next : LinkState} {u : SourceUnit}
  {scope : Scope} {a : Assembled}

/-- **The exports of a unit** have different names: declarations do, and none that is public takes the name
of the segment's size. -/
theorem Assembly.nodup_exports {os : List Offer} (hal : state.Aligned os)
    (hs : Scope.ofUnit state u = .ok scope) {es : List Export} (he : Assembly.exports scope u = .ok es) :
    (es.map Export.name).Nodup ∧ ∀ e ∈ es,
      Assembly.InScope scope e ∨ e.sort = .global ∧ e.index = scope.globals.length := by
  obtain ⟨own, hm, he⟩ := ok_of_bind he
  cases he
  obtain ⟨hsub, hall⟩ := Assembly.exports_of_decls (map_of_mapM hm)
  rw [Scope.ofUnit_eq hal] at hs
  obtain ⟨-, hnodup, -, hfree⟩ := Scope.addDecls_eq_ok hs
  refine ⟨?_, List.forall_mem_append.2
    ⟨fun e he => .inl (hall e he).1, List.forall_mem_singleton.2 (.inr ⟨rfl, rfl⟩)⟩⟩
  rw [List.map_append, List.nodup_append]
  refine ⟨hnodup.sublist hsub, List.nodup_cons.2 ⟨nofun, .nil⟩, ?_⟩
  intro name hname _ hsize heq
  obtain ⟨e, he, rfl⟩ := List.mem_map.1 hname
  obtain ⟨-, d, hd, hpublic, hdn⟩ := hall e he
  exact hfree d hd hpublic (by rw [← hdn, heq]; exact List.mem_singleton.1 hsize)

/-- **The kinds of imported globals** are those of the state. -/
theorem LinkState.kinds_imports (state : LinkState) :
    state.imports.filterMap (·.entity.kind?) = state.globals.map Prod.snd := by
  rw [LinkState.globals, List.map_filterMap]
  refine congrArg (List.filterMap · _) (funext fun i => ?_)
  cases hi : i.entity <;> simp [Import.global?, Entity.kind?, hi]

/-- **The types in order** are the types of a module. -/
theorem Wasm.Module.map_typeAt (m : Module) : (List.range' 0 m.types.length).map m.typeAt = m.types := by
  refine List.ext_getElem? fun i => ?_
  rw [List.getElem?_map]
  by_cases hi : i < m.types.length
  · rw [List.getElem?_range' hi, List.getElem?_eq_getElem hi]
    simp [Module.typeAt, hi]
  · rw [List.getElem?_eq_none (by simpa using hi), List.getElem?_eq_none (by simpa using hi)]
    rfl

/-- The functions of a unit are well kinded, and its globals copy only imported globals of their own
kind. -/
structure SourceUnit.WellKinded (u : SourceUnit) (state : LinkState) (scope : Scope) : Prop where
  bodies : ∀ f ∈ u.functions, f.WellKinded (state.spaces u) scope
  globals : ∀ g ∈ u.globals, ∀ name, g.init = .global name →
    ∃ i, scope.global? name = some i ∧ (state.globals.map Prod.snd)[i]? = some g.width.kind

/-- **The globals of a unit** start as words of their kinds. -/
theorem SourceUnit.WellKinded.globalDefs (hk : u.WellKinded state scope) {globals : List GlobalDef}
    (hg : Assembly.globalDefs scope u = .ok globals) :
    ∀ d ∈ globals, d.init.HasKind (state.globals.map Prod.snd) d.kind := by
  intro d hd
  have hmem : Except.ok d ∈ u.globals.map (Assembly.globalDef scope) :=
    Assembly.map_of_globalDefs hg ▸ List.mem_map_of_mem hd
  obtain ⟨g, hmem, hd⟩ := List.mem_map.1 hmem
  refine Assembly.hasKind_of_globalDef hd fun name i hname hi _ => ?_
  obtain ⟨j, hj, hkind⟩ := hk.globals g hmem name hname
  obtain rfl : i = j := Option.some.inj (hi.symm.trans hj)
  exact hkind

/-- **The bodies of a unit have the types of their functions.** -/
theorem SourceUnit.WellKinded.bodies_hasType {os : List Offer} (hk : u.WellKinded state scope)
    (hfit : (state.spaces u).Fit scope) (hal : state.Aligned (.hook :: os)) {traced : Bool}
    {bodies : List FuncBody} {segment : Segment}
    (hb : Assembly.lowerFunctions scope traced u = .ok (bodies, segment)) :
    bodies.length = u.functions.length ∧ ∀ b ∈ u.functions.zip bodies,
      Code.HasType (state.spaces u) (b.1.type.params ++ b.2.locals) [b.1.type.results] b.2.code []
        b.1.type.results.reverse := by
  have hhook : (state.spaces u).functions[Layout.traceHook]? = some ⟨[], []⟩ := by
    rw [LinkState.spaces, hal.types]
    rfl
  obtain ⟨hlength, hall⟩ := Assembly.lower_of_lowerFunctions hb
  refine ⟨hlength, fun b hmem => ?_⟩
  obtain ⟨start, stop, hlower⟩ := hall b hmem
  exact Function.hasType_lower hfit (fun _ => hhook) (hk.bodies b.1 (List.of_mem_zip hmem).1) hlower _

/-- What the parts of a module are that belong to a unit over a state. -/
structure IsModuleOf (m : Module) (state : LinkState) (u : SourceUnit) : Prop where
  functionTypes : m.functionTypes = List.range' 0 m.types.length
  spaces : m.spaces = state.spaces u
  importedGlobals : m.importedGlobals = state.globals.map Prod.snd
  defined : m.functions.map m.typeAt = u.functions.map Function.type

/-- **Function `i` of an assembled unit has type `i`,** for imported and for defined functions alike, so its
code may refer to what the unit may. -/
theorem isModuleOf_assemble {os : List Offer} (hal : state.Aligned os)
    (hs : Scope.ofUnit state u = .ok scope)
    (ha : assemble config state u = .ok (a, next)) : IsModuleOf a.code state u := by
  obtain ⟨_, bodies, segment, globals, exports, hs', -, hg, -, hcode, -⟩ := assemble_eq_ok ha
  obtain rfl := Except.ok.inj (hs.symm.trans hs')
  have hscope := Scope.eq_of_ofUnit hal hs
  have hkinds := Assembly.kinds_globalDefs hg
  have hlength : a.code.types.length = os.length + u.functions.length := by
    rw [hcode]
    show (state.types ++ u.functions.map Function.type).length = _
    rw [List.length_append, hal.types, List.length_map, List.length_map]
  have hfunctions : a.code.functionTypes = List.range' 0 a.code.types.length := by
    rw [hlength, Module.functionTypes, Module.importedFunctions, hcode]
    show state.imports.filterMap _ ++ List.range' scope.importedFunctions u.functions.length = _
    rw [hal.types_imports, hscope, ← List.range'_append_1, Nat.zero_add]
  have hglobals : a.code.globalKinds = (state.spaces u).globals := by
    rw [Module.globalKinds, Module.importedGlobals, hcode]
    show state.imports.filterMap _ ++ (globals ++ [Assembly.sizeGlobal segment]).map _ = _
    rw [state.kinds_imports, List.map_append, hkinds, ← List.append_assoc]
    rfl
  have hspaces : a.code.spaces = state.spaces u := by
    rw [Module.spaces, hfunctions, a.code.map_typeAt, hglobals, hcode]
    rfl
  refine ⟨hfunctions, hspaces, ?_, ?_⟩
  · rw [Module.importedGlobals, hcode]
    exact state.kinds_imports
  · have hall : (a.code.importedFunctions ++ a.code.functions).map a.code.typeAt =
        state.types ++ u.functions.map Function.type := congrArg IndexSpaces.functions hspaces
    rw [List.map_append] at hall
    refine List.append_inj_right hall ?_
    rw [List.length_map, Module.importedFunctions, hcode]
    show (state.imports.filterMap _).length = _
    rw [hal.types_imports, List.length_range', hal.types, List.length_map]

/-- **The bodies of a module pair with its functions** as they pair with those of its unit. -/
theorem IsModuleOf.zip_bodies {m : Module} (hm : IsModuleOf m state u) :
    (m.functions.zip m.bodies).map (fun b => (m.typeAt b.1, b.2)) =
      (u.functions.zip m.bodies).map fun b => (b.1.type, b.2) := by
  have hzip : (m.functions.map m.typeAt).zip m.bodies = (u.functions.map Function.type).zip m.bodies := by
    rw [hm.defined]
  rw [List.zip_map_left, List.zip_map_left] at hzip
  exact hzip

/-- **The first global of a state that is reached** is an address. -/
theorem Linked.dataStart (h : Linked minPages units state) :
    (state.globals.map Prod.snd)[Layout.dataStartGlobal]? = some .i32 := by
  obtain ⟨more, himports, -⟩ := h.imports
  rw [← state.kinds_imports, himports]
  rfl

/-- **An assembled unit has one memory,** the one that the loader provides. -/
theorem Linked.memories_assemble (h : Linked minPages units state)
    (ha : assemble config state u = .ok (a, next)) : a.code.memories = [minPages] := by
  obtain ⟨_, _, _, _, _, -, -, -, -, hcode, -⟩ := assemble_eq_ok ha
  obtain ⟨more, himports, hmore⟩ := h.imports
  rw [Module.memories, hcode]
  show state.imports.filterMap _ = _
  rw [himports, List.filterMap_append, hmore]
  rfl

/-- **A module has the functions in scope of its unit.** -/
theorem IsModuleOf.length_functionTypes {m : Module} {os : List Offer} (hm : IsModuleOf m state u)
    (hal : state.Aligned os) (hs : Scope.ofUnit state u = .ok scope) :
    m.functionTypes.length = scope.functions.length := by
  have hlength := congrArg (List.length ∘ IndexSpaces.functions) hm.spaces
  rw [Scope.eq_of_ofUnit hal hs]
  simpa [Module.spaces, LinkState.spaces, hal.types] using hlength

/-- **A module has the globals in scope of its unit** and one for the size of its segment. -/
theorem IsModuleOf.length_globalKinds {m : Module} {os : List Offer} (hm : IsModuleOf m state u)
    (hal : state.Aligned os) (hs : Scope.ofUnit state u = .ok scope) :
    m.globalKinds.length = scope.globals.length + 1 := by
  have hlength := congrArg (List.length ∘ IndexSpaces.globals) hm.spaces
  rw [Scope.eq_of_ofUnit hal hs]
  simpa [Module.spaces, LinkState.spaces, Nat.add_assoc] using hlength

/-- **A module has the types** that its functions name. -/
theorem IsModuleOf.functionTypes_lt {m : Module} (hm : IsModuleOf m state u) :
    ∀ t ∈ m.functionTypes, t < m.types.length := by
  intro t ht
  rw [hm.functionTypes, List.mem_range'_1] at ht
  omega

/-- **An assembled unit has one body for each function.** -/
theorem length_bodies_of_assemble (ha : assemble config state u = .ok (a, next)) :
    a.code.bodies.length = a.code.functions.length := by
  obtain ⟨_, _, _, _, _, -, hb, -, -, hcode, -⟩ := assemble_eq_ok ha
  obtain ⟨hlength, -⟩ := Assembly.lower_of_lowerFunctions hb
  rw [hcode]
  exact hlength.trans List.length_range'.symm

/-- **What an assembled unit exports is there.** -/
theorem IsModuleOf.exports {m : Module} {os : List Offer} (hm : IsModuleOf m state u)
    (hal : state.Aligned os) (hs : Scope.ofUnit state u = .ok scope) {e : Export}
    (he : Assembly.InScope scope e ∨ e.sort = .global ∧ e.index = scope.globals.length) :
    m.Exports e := by
  have hfl := hm.length_functionTypes hal hs
  have hgl := hm.length_globalKinds hal hs
  unfold Module.Exports
  rcases he with (⟨hsort, hindex⟩ | ⟨hsort, hindex⟩) | ⟨hsort, hindex⟩
  · rw [hsort]
    exact hfl ▸ hindex
  · rw [hsort]
    show e.index < _
    omega
  · rw [hsort]
    show e.index < _
    omega

/-- **An assembled unit is a well-formed module,** over every state that is reached. -/
theorem Linked.wellFormed (h : Linked minPages units state) (hpages : minPages ≤ 65536)
    (hs : Scope.ofUnit state u = .ok scope) (hk : u.WellKinded state scope)
    (ha : assemble config state u = .ok (a, next)) : a.code.WellFormed := by
  have hal := h.aligned
  have hm := isModuleOf_assemble hal hs ha
  obtain ⟨_, bodies, segment, globals, exports, hs', hb, hg, he, hcode, -⟩ := assemble_eq_ok ha
  obtain rfl := Except.ok.inj (hs.symm.trans hs')
  have hinits := hk.globalDefs hg
  obtain ⟨hnames, hexports⟩ := Assembly.nodup_exports hal hs he
  obtain ⟨-, hbodies⟩ := hk.bodies_hasType (LinkState.fit_spaces hal hs h.dataStart) hal hb
  refine
    { functions := hm.functionTypes_lt, memory := ⟨minPages, h.memories_assemble ha, hpages⟩, globals := ?_,
      exports := fun e hmem => ?_, exportNames := ?_, bodyCount := length_bodies_of_assemble ha,
      bodies := fun b hmem => ?_, dataStart := ?_ }
  · rw [hm.importedGlobals, hcode]
    exact List.forall_mem_append.2 ⟨hinits, List.forall_mem_singleton.2 rfl⟩
  · rw [hcode] at hmem
    exact hm.exports hal hs (hexports e hmem)
  · rw [hcode]
    exact hnames
  · -- The bodies pair with the declared functions as they pair with the types of those.
    have hpair := List.mem_map_of_mem (f := fun b => (a.code.typeAt b.1, b.2)) hmem
    rw [hm.zip_bodies] at hpair
    obtain ⟨⟨f, body⟩, hf, heq⟩ := List.mem_map.1 hpair
    obtain ⟨htype, rfl⟩ := Prod.mk.inj heq
    rw [hcode] at hf
    have hbody := hbodies (f, b.2) hf
    unfold Module.HasBody
    rw [hm.spaces, ← htype]
    exact hbody
  · rw [hm.importedGlobals]
    exact h.dataStart

end Assembled

end WasmLowering
