/-
# The items of a well-formed module pass the check

The check reads a section item by item and keeps what the items have given so
far.  Numbers of types aside, that is told by the items themselves: once some
are read, the functions are those among them.  So for each section there is one
statement about one item,

    what is given by `done`, and the bytes of `x`, lead to what is given by `done ++ [x]`,

and `Items.checkSection_eq_ok` takes it along the section.

| section   | what an item adds                              |
|-----------|------------------------------------------------|
| types     | a type, in the type space                      |
| imports   | a function, a memory or a global               |
| functions | a function and its signature                   |
| globals   | a global                                       |
| exports   | a name                                         |
| data      | nothing                                        |
-/

import WasmLowering.Proofs.Decoding
import WasmLowering.Proofs.DefinedTypes
import WasmLowering.Proofs.ModuleTyping

namespace WasmLowering
namespace Wasm

/-! ## Going through a section -/

/-- **The items of a section are taken one after the other.**  What holds of the items before one and leads,
by its bytes, to the same with the item, holds of all. -/
theorem items_eq_ok {α β : Type} {item : α → Reader α} {enc : β → Bytes} (Inv : List β → α → Prop) :
    (done xs : List β) → (a : α) → Inv done a →
      (∀ before x after a, done ++ xs = before ++ x :: after → Inv before a →
        Reads (item a) (enc x) (Inv (before ++ [x]))) →
      ∀ offset, ∃ a' s, items item xs.length a ⟨offset, xs.flatMap enc⟩ = .ok (a', s) ∧
        Inv (done ++ xs) a'
  | done, [], a, h, _, offset => ⟨a, ⟨offset, []⟩, rfl, by rwa [List.append_nil]⟩
  | done, x :: xs, a, h, hstep, offset => by
    obtain ⟨b, hread, hb⟩ := hstep done x xs a rfl h offset (xs.flatMap enc)
    have hassoc : done ++ x :: xs = done ++ [x] ++ xs := (List.append_cons ..)
    rw [hassoc] at hstep ⊢
    obtain ⟨a', s, hrest, ha'⟩ := items_eq_ok Inv (done ++ [x]) xs b hb hstep _
    refine ⟨a', s, ?_, ha'⟩
    rw [List.flatMap_cons]
    show (item a ⟨offset, enc x ++ xs.flatMap enc⟩ >>= fun p => items item xs.length p.1 p.2) = _
    rw [hread]
    exact hrest

/-- **An item among others** is one of them all. -/
theorem mem_of_split {β : Type} {xs before after : List β} {x : β} (h : xs = before ++ x :: after) : x ∈ xs :=
  h ▸ List.mem_append_right _ List.mem_cons_self

namespace Items

/-- **A section passes** if there is room for its items and each of them passes. -/
theorem checkSection_eq_ok {β : Type} {id : Nat} {item : ModuleContext → Reader ModuleContext}
    {enc : β → Bytes} {xs : List β} (Inv : List β → ModuleContext → Prop) {ctx : ModuleContext}
    (hitem : item? id = some item) (hquota : checkQuota ctx id xs.length = .ok ()) (h : Inv [] ctx)
    (hstep : ∀ before x after ctx, xs = before ++ x :: after → Inv before ctx →
      Reads (item ctx) (enc x) (Inv (before ++ [x]))) (here offset : Nat) :
    ∃ ctx', checkSection ctx id xs.length here ⟨offset, xs.flatMap enc⟩ = .ok ctx' ∧ Inv xs ctx' := by
  obtain ⟨ctx', s, hread, hinv⟩ := items_eq_ok Inv [] xs ctx h hstep offset
  refine ⟨ctx', ?_, hinv⟩
  unfold checkSection
  rw [hquota, hitem]
  show (items item xs.length ctx ⟨offset, xs.flatMap enc⟩ >>= fun p => .ok p.1) = _
  rw [hread]
  rfl

end Items

/-! ## What items have given -/

/-- The type of a memory with some pages at least. -/
def MemoryType.ofPages (pages : Nat) : MemoryType := ⟨⟨pages, none, .i32⟩, false, none⟩

/-- The type of a global that never changes. -/
def GlobalType.ofKind (k : Kind) : GlobalType := ⟨.ofKind k, false, false⟩

/-- What the items of a module have given so far, with types told by their indices. -/
structure Given where
  functions : List Nat
  memories : List Nat
  globals : List Kind
  /-- The types of the defined functions. -/
  defined : List FuncType
  exports : List String
  /-- The number of words in the types of imports and exports. -/
  typeSize : Nat
  bodies : List Slice

/-- What a context holds, over a space of types. -/
structure ModuleContext.Has (ctx : ModuleContext) (space : TypeSpace) (g : Given) : Prop where
  types : ctx.declarations.types = space
  functions : ctx.declarations.functions = (g.functions.map space.numberAt).toArray
  memories : ctx.declarations.memories = (g.memories.map MemoryType.ofPages).toArray
  globals : ctx.declarations.globals = (g.globals.map GlobalType.ofKind).toArray
  defined : ctx.defined = (g.defined.map FuncType.signature).toArray
  exports : ctx.exports.map Prod.fst = g.exports.reverse
  typeSize : ctx.typeSize = g.typeSize
  bodies : ctx.bodies = g.bodies

namespace Module

variable (m : Module)

/-- What some imports give. -/
def givenByImports (done : List Import) : Given where
  functions := done.filterMap (·.entity.type?)
  memories := done.filterMap (·.entity.pages?)
  globals := done.filterMap (·.entity.kind?)
  defined := []
  exports := []
  typeSize := 1 + total m.importSize done
  bodies := []

/-- What the imports and some defined functions give. -/
def givenByFunctions (done : List Nat) : Given :=
  { m.givenByImports m.imports with
    functions := m.importedFunctions ++ done
    defined := done.map m.typeAt }

/-- What the imports, the functions and some defined globals give. -/
def givenByGlobals (done : List GlobalDef) : Given :=
  { m.givenByFunctions m.functions with globals := m.importedGlobals ++ done.map GlobalDef.kind }

/-- What all items but exports, and some exports, give. -/
def givenByExports (done : List Export) : Given :=
  { m.givenByGlobals m.globals with
    exports := done.map Export.name
    typeSize := 1 + total m.importSize m.imports + total m.exportSize done }

/-- What all items give, with the contents of the bodies. -/
def givenWithBodies (contents : List Slice) : Given :=
  { m.givenByExports m.exports with bodies := contents }

end Module

theorem ModuleContext.checkCount_eq_ok {what : String} {limit count : Nat} (h : count ≤ limit) :
    ModuleContext.checkCount what limit count = .ok () := if_neg (Nat.not_lt.2 h)

/-! ## Types -/

/-- A context holds function types and nothing else. -/
structure ModuleContext.HasTypes (ctx : ModuleContext) (types : List FuncType) : Prop where
  holds : ctx.types.Holds types
  consistent : ctx.types.Consistent
  start : ctx = (ModuleContext.start .empty).declare ({ · with types := ctx.types })

/-- **The definition of a type passes.** -/
theorem Reads.typeEntry {ctx : ModuleContext} {done : List FuncType} {t : FuncType}
    (h : ctx.HasTypes done) (hcount : done.length + 1 ≤ ModuleContext.itemLimit)
    (hp : t.params.length ≤ Reader.arityLimit) (hr : t.results.length ≤ Reader.arityLimit) :
    Reads (Items.typeEntry ctx) (Encode.funcType t) (·.HasTypes (done ++ [t])) := by
  obtain ⟨space, hdefine, hholds, hconsistent⟩ := TypeSpace.define_definition h.holds h.consistent t
  have hroom : ModuleContext.checkCount "types" ModuleContext.itemLimit (ctx.types.numbers.size + 1) =
      .ok () := ModuleContext.checkCount_eq_ok (by rw [h.holds.size]; exact hcount)
  have hadd : ctx.define [t.definition] = .ok (ctx.declare ({ · with types := space })) := by
    show (ModuleContext.checkCount "types" _ (ctx.types.numbers.size + 1) >>= _) = _
    rw [hroom]
    show (ctx.types.define [t.definition] >>= _) = _
    rw [hdefine]
    rfl
  refine .bindNil .position fun here _ => (typeGroup hp hr).bindLast ?_
  rintro _ rfl
  refine (check hadd).mono ?_
  rintro _ rfl
  exact ⟨hholds, hconsistent, by rw [h.start]; rfl⟩

/-- **The types of a module pass,** and lead to a space that holds them. -/
theorem Module.checkTypes {m : Module} (hl : m.IsWithinLimits) (here offset : Nat) :
    ∃ ctx space, Items.checkSection (.start .empty) 1 m.types.length here
        ⟨offset, m.types.flatMap Encode.funcType⟩ = .ok ctx ∧
      space.Holds m.types ∧ ctx.Has space (m.givenByImports []) := by
  have hstart : (ModuleContext.start .empty).HasTypes [] := ⟨⟨rfl, nofun⟩, nofun, rfl⟩
  have hquota : Items.checkQuota (.start .empty) 1 m.types.length = .ok () :=
    ModuleContext.checkCount_eq_ok (by rw [Nat.add_comm]; exact hl.types)
  obtain ⟨ctx, hcheck, hctx⟩ := Items.checkSection_eq_ok (fun done ctx => ctx.HasTypes done) rfl hquota
    hstart (fun before t after ctx hsplit hctx => by
      have hmem : t ∈ m.types := mem_of_split hsplit
      have hcount : before.length + 1 ≤ m.types.length := by
        rw [hsplit, List.length_append, List.length_cons]
        omega
      obtain ⟨hp, hr⟩ := hl.arity t hmem
      exact Reads.typeEntry hctx (Nat.le_trans hcount hl.types) hp hr) here offset
  refine ⟨ctx, ctx.types, hcheck, hctx.holds, ?_⟩
  rw [hctx.start]
  exact ⟨rfl, rfl, rfl, rfl, rfl, rfl, rfl, rfl⟩

/-! ## Imports -/

/-- **The type of an item is measured** if there is room for it. -/
theorem ModuleContext.measure_eq {ctx : ModuleContext} {t : ItemType}
    (h : ctx.typeSize + t.size ctx.types < ModuleContext.typeSizeLimit) :
    ctx.measure t = .ok { ctx with typeSize := ctx.typeSize + t.size ctx.types } :=
  if_neg (Nat.not_le.2 h)

/-- **What an import changes** if its type is in order and there is room for it. -/
theorem ModuleContext.importItem_eq {ctx : ModuleContext} {written t : ItemType} (name : ImportName)
    (hresolve : written.resolve ctx.types = .ok t)
    (hcount : (ctx.declarations.add t).count t.sort ≤ ModuleContext.sortLimit t.sort)
    (hsize : ctx.typeSize + t.size ctx.types < ModuleContext.typeSizeLimit) :
    ctx.importItem name written = .ok
      { ctx with
        declarations := ctx.declarations.add t
        imports := (name, t) :: ctx.imports
        typeSize := ctx.typeSize + t.size ctx.types } := by
  have htypes : (ctx.declarations.add t).types = ctx.types := by cases t <;> rfl
  unfold ModuleContext.importItem
  rw [hresolve]
  show (ModuleContext.checkCount t.sort.plural _ ((ctx.declarations.add t).count t.sort) >>= _) = _
  rw [ModuleContext.checkCount_eq_ok hcount]
  rw [← htypes] at hsize ⊢
  exact ModuleContext.measure_eq hsize

namespace Reads

/-- **The type of a global is read back.** -/
theorem globalType (k : Kind) : Reads Reader.globalType [kindByte k, 0x00] (· = .ofKind k) := by
  refine (valType k).bind ?_
  rintro _ rfl
  exact .bindNil .position fun _ _ => .byteBind (.pure rfl)

/-- **The type of a memory is read back.** -/
theorem memoryType {pages : Nat} (h : pages ≤ 65536) :
    Reads Reader.memoryType (0x00 :: Leb128.unsigned pages) (· = .ofPages pages) := by
  refine .bindNil .position fun here _ => .byteBind ?_
  have hlimits : Reads (Reader.limits 0) (Leb128.unsigned pages) (· = ⟨pages, none, .i32⟩) := by
    refine (u64 (by omega)).bindLast ?_
    rintro _ rfl
    exact .pure rfl
  refine .guarded (by decide) (hlimits.bindLast ?_)
  rintro _ rfl
  exact .pure rfl

end Reads

/-- The type of an import as it is written. -/
def importType : Entity → ItemType
  | .function t => .function t false
  | .global k => .global (.ofKind k)
  | .memory pages => .memory (.ofPages pages)

/-- What an import brings in is in order: a function has one of the types, and a memory is not too large. -/
def EntityFits (types : List FuncType) : Entity → Prop
  | .function t => t < types.length
  | .global _ => True
  | .memory pages => pages ≤ 65536

/-- **What an import brings in is read back.** -/
theorem Reads.itemType {types : List FuncType} {e : Entity} (h : EntityFits types e)
    (htypes : types.length ≤ operandBound) :
    Reads Reader.itemType (Encode.entity e) (· = importType e) := by
  refine .bindNil .position fun here _ => ?_
  cases e with
  | function t =>
    refine .byteBind ((u32 (Nat.lt_of_lt_of_le h htypes)).map ?_)
    rintro _ rfl
    rfl
  | global k =>
    refine .byteBind ((globalType k).map ?_)
    rintro _ rfl
    rfl
  | memory pages =>
    refine .byteBind ((memoryType h).map ?_)
    rintro _ rfl
    rfl

/-- **Sizes of two lists are added.** -/
theorem Module.total_append {α : Type} (size : α → Nat) (as bs : List α) :
    total size (as ++ bs) = total size as + total size bs := by
  induction as with
  | nil => exact (Nat.zero_add _).symm
  | cons a as ih => rw [List.cons_append, total, total, ih, Nat.add_assoc]

namespace TypeSpace.Holds

variable {s : TypeSpace} {types : List FuncType}

/-- **The signature of a type** is found under its number. -/
theorem signature (h : s.Holds types) {i : Nat} {t : FuncType} (hi : types[i]? = some t) :
    s.signature? (s.numberAt i) = some t.signature := by
  rw [TypeSpace.signature?, TypeSpace.shape?, h.number hi]
  rfl

/-- **The type of a function is resolved** to its number. -/
theorem resolveFunction (h : s.Holds types) {i : Nat} (hi : i < types.length) :
    ItemType.resolveFunction s i = .ok (s.numberAt i) := by
  have hsig := h.signature (List.getElem?_eq_getElem hi)
  unfold ItemType.resolveFunction TypeSpace.number
  rw [h.numbers_eq hi]
  show (ItemType.require (s.signature? (s.numberAt i)).isSome _ >>= _) = _
  rw [hsig]
  rfl

end TypeSpace.Holds

/-- **The type of a global is resolved** to itself. -/
theorem ItemType.resolveGlobal_ofKind (s : TypeSpace) (k : Kind) :
    ItemType.resolveGlobal s (.ofKind k) = .ok (.ofKind k) := by
  cases k <;> rfl

/-- **A memory that is not too large** is in order. -/
theorem ItemType.checkMemory_ofPages {pages : Nat} (h : pages ≤ 65536) :
    ItemType.checkMemory (.ofPages pages) = .ok () := by
  have hpages : (decide (pages ≤ 65536) && true) = true := by
    rw [Bool.and_true]
    exact decide_eq_true h
  show (ItemType.require (decide (pages ≤ 65536) && true) _ >>= fun _ => ItemType.require true _) = _
  rw [ItemType.require_eq_ok.2 hpages]
  rfl

/-- The type of an import with its number. -/
def TypeSpace.importType (s : TypeSpace) : Entity → ItemType
  | .function t => .function (s.numberAt t) false
  | .global k => .global (.ofKind k)
  | .memory pages => .memory (.ofPages pages)

namespace Module

variable {m : Module} {space : TypeSpace} (hspace : space.Holds m.types)

include hspace

/-- **The type of an import is resolved.** -/
theorem resolve_importType {e : Entity} (h : EntityFits m.types e) :
    (Wasm.importType e).resolve space = .ok (space.importType e) := by
  cases e with
  | function t =>
    show (ItemType.resolveFunction space t >>= _) = _
    rw [hspace.resolveFunction h]
    rfl
  | global k =>
    show (ItemType.resolveGlobal space (.ofKind k) >>= _) = _
    rw [ItemType.resolveGlobal_ofKind]
    rfl
  | memory pages =>
    show (ItemType.checkMemory (.ofPages pages) >>= _) = _
    rw [ItemType.checkMemory_ofPages h]
    rfl

/-- **The words in the type of a function** are those of its signature. -/
theorem size_function {t : Nat} (h : t < m.types.length) (isExact : Bool) :
    (ItemType.function (space.numberAt t) isExact).size space = m.functionSize t := by
  have ht : m.typeAt t = m.types[t] := by
    rw [Module.typeAt, List.getElem?_eq_getElem h]
    rfl
  rw [ItemType.size, TypeSpace.shape?, hspace.number (List.getElem?_eq_getElem h), Module.functionSize, ht]
  simp [FuncType.definition, FuncType.signature, Shape.size]

/-- **The words in the type of an import.** -/
theorem size_importType {i : Import} (h : EntityFits m.types i.entity) :
    (space.importType i.entity).size space = m.importSize i := by
  unfold Module.importSize
  cases hi : i.entity with
  | function t =>
    rw [hi] at h
    exact size_function hspace h false
  | global k => rfl
  | memory pages => rfl

end Module

/-- **An import adds what it brings in** to the items of its sort, and nothing to the others. -/
theorem Declarations.add_importType (d : Declarations) (space : TypeSpace) (e : Entity) :
    (d.add (space.importType e)).functions = d.functions ++ (e.type?.toList.map space.numberAt).toArray ∧
    (d.add (space.importType e)).memories = d.memories ++ (e.pages?.toList.map MemoryType.ofPages).toArray ∧
    (d.add (space.importType e)).globals = d.globals ++ (e.kind?.toList.map GlobalType.ofKind).toArray ∧
    (d.add (space.importType e)).types = d.types := by
  cases e with
  | function t => exact ⟨rfl, (Array.append_empty ..).symm, (Array.append_empty ..).symm, rfl⟩
  | global k => exact ⟨(Array.append_empty ..).symm, (Array.append_empty ..).symm, rfl, rfl⟩
  | memory pages => exact ⟨(Array.append_empty ..).symm, rfl, (Array.append_empty ..).symm, rfl⟩

/-- **The last item is kept at the end,** if it is kept. -/
theorem filterMap_concat {α β : Type} (f : α → Option β) (as : List α) (a : α) :
    (as ++ [a]).filterMap f = as.filterMap f ++ (f a).toList := by
  rw [List.filterMap_append, List.filterMap_cons]
  cases f a <;> rfl

/-- **What is given by imports grows by what an import brings in.** -/
theorem ModuleContext.Has.addImport {m : Module} {space : TypeSpace} {ctx : ModuleContext} {done : List Import}
    {i : Import} (h : ctx.Has space (m.givenByImports done)) (name : ImportName)
    (hsize : (space.importType i.entity).size space = m.importSize i) :
    ModuleContext.Has
      { ctx with
        declarations := ctx.declarations.add (space.importType i.entity)
        imports := (name, space.importType i.entity) :: ctx.imports
        typeSize := ctx.typeSize + (space.importType i.entity).size space }
      space (m.givenByImports (done ++ [i])) := by
  obtain ⟨hfunctions, hmemories, hglobals, htypes⟩ := ctx.declarations.add_importType space i.entity
  refine ⟨htypes.trans h.types, ?_, ?_, ?_, h.defined, h.exports, ?_, h.bodies⟩
  · rw [hfunctions, h.functions, List.append_toArray, ← List.map_append]
    exact congrArg (fun fs => (fs.map space.numberAt).toArray) (filterMap_concat _ done i).symm
  · rw [hmemories, h.memories, List.append_toArray, ← List.map_append]
    exact congrArg (fun ms => (ms.map MemoryType.ofPages).toArray) (filterMap_concat _ done i).symm
  · rw [hglobals, h.globals, List.append_toArray, ← List.map_append]
    exact congrArg (fun gs => (gs.map GlobalType.ofKind).toArray) (filterMap_concat _ done i).symm
  · rw [h.typeSize, hsize]
    show 1 + _ + _ = 1 + Module.total m.importSize (done ++ [i])
    rw [Module.total_append, Nat.add_assoc]
    rfl

/-- There is room for what items have given. -/
structure Given.Fits (g : Given) : Prop where
  functions : g.functions.length ≤ ModuleContext.itemLimit
  memories : g.memories.length ≤ ModuleContext.spaceLimit
  globals : g.globals.length ≤ ModuleContext.itemLimit
  typeSize : g.typeSize < ModuleContext.typeSizeLimit

/-- **There is room for an item** if there is for what all items have given. -/
theorem ModuleContext.Has.count_le {ctx : ModuleContext} {space : TypeSpace} {g : Given}
    (h : ctx.Has space g) (hfits : g.Fits) (e : Entity) :
    ctx.declarations.count (space.importType e).sort ≤ ModuleContext.sortLimit (space.importType e).sort := by
  cases e with
  | function t =>
    show ctx.declarations.functions.size ≤ ModuleContext.itemLimit
    rw [h.functions, List.size_toArray, List.length_map]
    exact hfits.functions
  | global k =>
    show ctx.declarations.globals.size ≤ ModuleContext.itemLimit
    rw [h.globals, List.size_toArray, List.length_map]
    exact hfits.globals
  | memory pages =>
    show ctx.declarations.memories.size ≤ ModuleContext.spaceLimit
    rw [h.memories, List.size_toArray, List.length_map]
    exact hfits.memories

/-- **An empty name is no mark of the shorter form** of imports, before what is brought in. -/
theorem Looks.refuseCompact (item : String) (e : Entity) :
    Looks (Items.refuseCompact item) (Encode.entity e) () := by
  intro offset rest
  unfold Items.refuseCompact
  split
  · cases e <;> rfl
  · rfl

/-- **An import passes.** -/
theorem Reads.importEntry {m : Module} {space : TypeSpace} (hspace : space.Holds m.types)
    (hl : m.IsWithinLimits) {ctx : ModuleContext} {done : List Import} {i : Import}
    (h : ctx.Has space (m.givenByImports done)) (hi : i ∈ m.imports)
    (hentity : EntityFits m.types i.entity) (hfits : (m.givenByImports (done ++ [i])).Fits) :
    Reads (Items.importEntry ctx) (Encode.importEntry i)
      (·.Has space (m.givenByImports (done ++ [i]))) := by
  obtain rfl := h.types
  obtain ⟨howner, hname⟩ := hl.importNames i hi
  have hafter := h.addImport (i.owner, i.name) (Module.size_importType hspace hentity)
  have hbound : m.types.length ≤ operandBound := Nat.le_trans hl.types (by decide)
  have hitem : ctx.importItem (i.owner, i.name) (importType i.entity) = .ok _ :=
    ModuleContext.importItem_eq _ (Module.resolve_importType hspace hentity)
      (hafter.count_le hfits i.entity) (Nat.lt_of_le_of_lt (Nat.le_of_eq hafter.typeSize) hfits.typeSize)
  rw [Encode.importEntry, List.append_assoc]
  refine .bindNil .position fun here _ => (name howner).bind ?_
  rintro _ rfl
  refine (name hname).bind ?_
  rintro _ rfl
  refine (Looks.refuseCompact i.name i.entity).bind ((itemType hentity hbound).bindLast ?_)
  rintro _ rfl
  refine (check hitem).mono ?_
  rintro _ rfl
  exact hafter

namespace Module

variable {m : Module}

/-- **There is room for what some of the imports give.** -/
theorem fits_imports (hl : m.IsWithinLimits) (hw : m.WellFormed) {done after : List Import}
    (h : m.imports = done ++ after) : (m.givenByImports done).Fits := by
  have hsub : List.Sublist done m.imports := h ▸ List.sublist_append_left done after
  have hfunctions : (done.filterMap (·.entity.type?)).length ≤ m.importedFunctions.length :=
    (hsub.filterMap _).length_le
  have hmemories : (done.filterMap (·.entity.pages?)).length ≤ m.memories.length :=
    (hsub.filterMap _).length_le
  have hglobals : (done.filterMap (·.entity.kind?)).length ≤ m.importedGlobals.length :=
    (hsub.filterMap _).length_le
  have hsize : total m.importSize done ≤ total m.importSize m.imports := by
    rw [h, total_append]
    exact Nat.le_add_right ..
  obtain ⟨pages, hpages, -⟩ := hw.memory
  have hl₁ := hl.allFunctions
  have hl₂ := hl.allGlobals
  have hl₃ := hl.typeSize
  rw [hpages] at hmemories
  refine ⟨?_, Nat.le_trans hmemories (show 1 ≤ 100 by decide), ?_, ?_⟩
  · show (done.filterMap _).length ≤ _
    omega
  · show (done.filterMap _).length ≤ _
    omega
  · show 1 + total m.importSize done < _
    omega

/-- **What the imports of a well-formed module bring in is in order.** -/
theorem WellFormed.entityFits (hw : m.WellFormed) {i : Import} (hi : i ∈ m.imports) :
    EntityFits m.types i.entity := by
  cases he : i.entity with
  | function t =>
    have hmem : t ∈ m.importedFunctions := List.mem_filterMap.2 ⟨i, hi, by rw [he]; rfl⟩
    exact hw.functions t (List.mem_append_left _ hmem)
  | global k => trivial
  | memory pages =>
    have hmem : pages ∈ m.memories := List.mem_filterMap.2 ⟨i, hi, by rw [he]; rfl⟩
    obtain ⟨p, hpages, hp⟩ := hw.memory
    rw [hpages] at hmem
    exact List.mem_singleton.1 hmem ▸ hp

/-- **The imports of a module pass.** -/
theorem checkImports {space : TypeSpace} (hspace : space.Holds m.types) (hl : m.IsWithinLimits)
    (hw : m.WellFormed) {ctx : ModuleContext} (h : ctx.Has space (m.givenByImports []))
    (here offset : Nat) :
    ∃ ctx', Items.checkSection ctx 2 m.imports.length here
        ⟨offset, m.imports.flatMap Encode.importEntry⟩ = .ok ctx' ∧
      ctx'.Has space (m.givenByImports m.imports) := by
  have hquota : Items.checkQuota ctx 2 m.imports.length = .ok () :=
    ModuleContext.checkCount_eq_ok hl.imports
  refine Items.checkSection_eq_ok (fun done ctx => ctx.Has space (m.givenByImports done)) rfl hquota h ?_
    here offset
  intro before i after ctx hsplit hctx
  have hmem : i ∈ m.imports := mem_of_split hsplit
  rw [List.append_cons] at hsplit
  exact Reads.importEntry hspace hl hctx hmem (hw.entityFits hmem) (fits_imports hl hw hsplit)

end Module

/-! ## Functions -/

/-- **A defined function passes.** -/
theorem Reads.functionEntry {m : Module} {space : TypeSpace} (hspace : space.Holds m.types)
    (hl : m.IsWithinLimits) {ctx : ModuleContext} {done : List Nat} {t : Nat}
    (h : ctx.Has space (m.givenByFunctions done)) (ht : t < m.types.length) :
    Reads (Items.functionEntry ctx) (Leb128.unsigned t)
      (·.Has space (m.givenByFunctions (done ++ [t]))) := by
  obtain rfl := h.types
  have hbound : m.types.length ≤ operandBound := Nat.le_trans hl.types (by decide)
  have hsig : ctx.types.signature? (ctx.types.numberAt t) = some (m.typeAt t).signature := by
    rw [Module.typeAt, List.getElem?_eq_getElem ht]
    exact hspace.signature (List.getElem?_eq_getElem ht)
  refine .bindNil .position fun here _ => (u32 (Nat.lt_of_lt_of_le ht hbound)).bindLast ?_
  rintro t rfl
  refine (check (hspace.resolveFunction ht)).bindLast ?_
  rintro _ rfl
  refine .pure ⟨rfl, ?_, h.memories, h.globals, ?_, h.exports, h.typeSize, h.bodies⟩
  · show ctx.declarations.functions.push (ctx.types.numberAt t) = _
    rw [h.functions, List.push_toArray]
    simp [Module.givenByFunctions]
  · show ctx.defined.push _ = _
    rw [hsig, h.defined, List.push_toArray]
    simp [Module.givenByFunctions]

/-- **The defined functions of a module pass.** -/
theorem Module.checkFunctions {m : Module} {space : TypeSpace} (hspace : space.Holds m.types)
    (hl : m.IsWithinLimits) (hw : m.WellFormed) {ctx : ModuleContext}
    (h : ctx.Has space (m.givenByImports m.imports)) (here offset : Nat) :
    ∃ ctx', Items.checkSection ctx 3 m.functions.length here
        ⟨offset, m.functions.flatMap Leb128.unsigned⟩ = .ok ctx' ∧
      ctx'.Has space (m.givenByFunctions m.functions) := by
  have hstart : m.givenByImports m.imports = m.givenByFunctions [] := by
    simp [givenByFunctions, givenByImports, importedFunctions]
  have hquota : Items.checkQuota ctx 3 m.functions.length = .ok () := by
    refine ModuleContext.checkCount_eq_ok ?_
    show ctx.declarations.functions.size + m.functions.length ≤ _
    rw [h.functions, List.size_toArray, List.length_map]
    exact hl.allFunctions
  rw [hstart] at h
  refine Items.checkSection_eq_ok (fun done ctx => ctx.Has space (m.givenByFunctions done)) rfl hquota h ?_
    here offset
  intro before t after ctx hsplit hctx
  have hmem : t ∈ m.functions := mem_of_split hsplit
  exact Reads.functionEntry hspace hl hctx (hw.functions t (List.mem_append_right _ hmem))

/-! ## Constant expressions -/

/-- **The operations of a constant expression pass** if each may stand in one and all of them pass. -/
theorem Items.constRun_eq_ok {ctx : ModuleContext} :
    ∀ {ops : List Located} {blocks blocks' : Blocks}, (∀ o ∈ ops, constViolation? ctx o = none) →
      Typing.steps ctx.code (ops.map Located.operation) blocks = .ok blocks' →
      constRun ctx ops blocks = .ok blocks'
  | [], _, _, _, h => by
    cases h
    rfl
  | o :: ops, blocks, blocks', hconst, h => by
    obtain ⟨ho, hops⟩ := List.forall_mem_cons.1 hconst
    obtain ⟨mid, hstep, hrest⟩ := ok_of_bind h
    rw [constRun, ho, hstep]
    exact constRun_eq_ok hops hrest

namespace ConstExpr

variable {e : ConstExpr} {globals : List Kind} {k : Kind}

/-- **More globals do no harm.** -/
theorem HasKind.append (h : e.HasKind globals k) (more : List Kind) : e.HasKind (globals ++ more) k := by
  cases e with
  | const v => exact h
  | globalGet i =>
    have hi : globals[i]? = some k := h
    show (globals ++ more)[i]? = some k
    rw [List.getElem?_append_left (List.getElem?_eq_some_iff.1 hi).1, hi]

/-- **The opcode of a constant expression fits** if the globals do. -/
theorem HasKind.fits (h : e.HasKind globals k) (hbound : globals.length ≤ operandBound) :
    e.opcode.Fits := by
  cases e with
  | const v => trivial
  | globalGet i => exact lt_of_getElem? h hbound

/-- **A constant expression leaves a word of its kind.** -/
theorem HasKind.passes {ctx : CodeContext} {spaces : IndexSpaces} {locals : List Kind}
    {labels : List (List Kind)} (h : e.HasKind spaces.globals k) (hctx : ctx.Declares spaces locals) :
    Passes ctx labels [e.opcode.operation] [] [k] := by
  cases e with
  | const v =>
    obtain rfl : v.kind = k := h
    exact .compute [] [v.kind] [] true
  | globalGet i => exact .globalGet hctx h

end ConstExpr

namespace ModuleContext.Has

variable {ctx : ModuleContext} {space : TypeSpace} {g : Given}

/-- **What a context holds it provides to code.** -/
theorem provides {m : Module} {pages : Nat} (h : ctx.Has space g) (hspace : space.Holds m.types)
    (hfunctions : ∀ t ∈ g.functions, t < m.types.length) (hmemory : g.memories = [pages]) :
    ctx.declarations.Provides ⟨g.functions.map m.typeAt, g.globals⟩ where
  function {i t} hi := by
    rw [List.getElem?_map] at hi
    obtain ⟨n, hn, rfl⟩ := Option.map_eq_some_iff.1 hi
    have ht : m.types[n]? = some (m.typeAt n) := by
      rw [Module.typeAt, List.getElem?_eq_getElem (hfunctions n (List.mem_of_getElem? hn))]
      rfl
    rw [Declarations.signature?, h.functions, h.types, List.getElem?_toArray, List.getElem?_map, hn]
    exact hspace.signature ht
  global {i k} hi := by
    refine ⟨.ofKind k, ?_, rfl⟩
    rw [h.globals, List.getElem?_toArray, List.getElem?_map, hi]
    rfl
  memory := by
    refine ⟨.ofPages pages, ?_, rfl⟩
    rw [h.memories, hmemory]
    rfl

/-- **References to functions** change nothing else. -/
theorem refer (h : ctx.Has space g) (functions : List Nat) : (ctx.refer functions).Has space g :=
  ⟨h.types, h.functions, h.memories, h.globals, h.defined, h.exports, h.typeSize, h.bodies⟩

/-- **The opcode of a constant expression may stand in one.** -/
theorem constViolation_eq_none (h : ctx.Has space g) {e : ConstExpr} {k : Kind}
    (he : e.HasKind g.globals k) {o : Located} (ho : o.operation = e.opcode.operation) :
    Items.constViolation? ctx o = none := by
  unfold Items.constViolation?
  rw [ho]
  cases e with
  | const v => rfl
  | globalGet i =>
    have hi : ctx.declarations.globals[i]? = some (.ofKind k) := by
      rw [h.globals, List.getElem?_toArray, List.getElem?_map, show g.globals[i]? = some k from he]
      rfl
    simp only [ConstExpr.opcode, Opcode.operation, Plain.operation, hi]
    rfl

/-- **A constant expression of a kind passes.** -/
theorem checkConst {functions : List FuncType} (h : ctx.Has space g)
    (hctx : ctx.declarations.Provides ⟨functions, g.globals⟩) {e : ConstExpr} {k : Kind}
    (he : e.HasKind g.globals k) {ops : List Located}
    (hops : ops.map Located.operation = [e.opcode.operation, .finish]) :
    Reads (Items.checkConst ctx (.ofKind k) ops) [] fun _ => True := by
  have hconst : ∀ o ∈ ops, Items.constViolation? ctx o = none := by
    intro o ho
    have hmem : o.operation ∈ ops.map Located.operation := List.mem_map_of_mem ho
    rw [hops] at hmem
    rcases List.mem_cons.1 hmem with hfirst | hlast
    · exact h.constViolation_eq_none he hfirst
    · unfold Items.constViolation?
      rw [List.mem_singleton.1 hlast]
      rfl
  have hcode : ctx.code.Declares ⟨functions, g.globals⟩ [] := ⟨hctx, rfl⟩
  have hpass : Passes ctx.code [[k]] [e.opcode.operation] [] [k] := he.passes hcode
  obtain ⟨b, hsteps, hclose, hform, -⟩ := Passes.within .body [k] [] [] hpass rfl rfl
  have hrun : Items.constRun ctx ops [.opened .body ⟨[], [.ofKind k]⟩ []] = .ok [] := by
    refine Items.constRun_eq_ok hconst ?_
    rw [hops]
    refine (Typing.steps_append hsteps [.finish]).trans ?_
    exact Typing.steps_cons (Passes.step_finish hclose (by rw [hform]; exact nofun)) []
  intro offset rest
  refine ⟨(), ?_, trivial⟩
  unfold Items.checkConst
  rw [hrun]
  rfl

/-- **A constant expression of a kind passes,** whatever functions it refers to. -/
theorem constExpr {functions : List FuncType} (h : ctx.Has space g)
    (hctx : ctx.declarations.Provides ⟨functions, g.globals⟩) {e : ConstExpr} {k : Kind}
    (he : e.HasKind g.globals k) {ops : List Located}
    (hops : ops.map Located.operation = [e.opcode.operation, .finish]) :
    Reads (Items.constExpr ctx (.ofKind k) ops) [] (· = ctx.refer (Items.referredBy ops)) :=
  ((h.refer _).checkConst ⟨hctx.function, hctx.global, hctx.memory⟩ he hops).bindNil fun _ _ => .pure rfl

end ModuleContext.Has

/-! ## Globals -/

section Globals

variable {m : Module} {space : TypeSpace} {ctx : ModuleContext}

/-- **What is there once functions are known** is provided to code. -/
theorem Module.provides (hspace : space.Holds m.types) (hw : m.WellFormed) {g : Given}
    (h : ctx.Has space g) (hfunctions : g.functions = m.functionTypes) (hmemory : g.memories = m.memories) :
    ctx.declarations.Provides ⟨m.functionTypes.map m.typeAt, g.globals⟩ := by
  obtain ⟨pages, hpages, -⟩ := hw.memory
  rw [← hfunctions]
  exact h.provides hspace (hfunctions ▸ hw.functions) (hmemory.trans hpages)

theorem Module.importedGlobals_le (hl : m.IsWithinLimits) : m.importedGlobals.length ≤ operandBound :=
  Nat.le_trans (Nat.le_trans (Nat.le_add_right ..) hl.allGlobals) (by decide)

/-- **A defined global passes.** -/
theorem Reads.globalEntry (hspace : space.Holds m.types) (hl : m.IsWithinLimits) (hw : m.WellFormed)
    {done : List GlobalDef} {g : GlobalDef} (h : ctx.Has space (m.givenByGlobals done))
    (hinit : g.init.HasKind m.importedGlobals g.kind) :
    Reads (Items.globalEntry ctx) (Encode.globalDef g)
      (·.Has space (m.givenByGlobals (done ++ [g]))) := by
  show Reads _ ([kindByte g.kind, 0x00] ++ Encode.constExpr g.init) _
  refine .bindNil .position fun here _ => (globalType g.kind).bind ?_
  rintro _ rfl
  refine (constExpr (hinit.fits (Module.importedGlobals_le hl))).bindLast fun ops hops => ?_
  refine (check (ItemType.resolveGlobal_ofKind ctx.types g.kind)).bindLast ?_
  rintro _ rfl
  have hprovides := Module.provides hspace hw h rfl rfl
  refine (h.constExpr hprovides (hinit.append _) hops).bindNil ?_
  rintro _ rfl
  refine .pure ⟨h.types, h.functions, h.memories, ?_, h.defined, h.exports, h.typeSize, h.bodies⟩
  show ctx.declarations.globals.push (.ofKind g.kind) = _
  rw [h.globals, List.push_toArray]
  simp [Module.givenByGlobals]

/-- **The defined globals of a module pass.** -/
theorem Module.checkGlobals (hspace : space.Holds m.types) (hl : m.IsWithinLimits) (hw : m.WellFormed)
    (h : ctx.Has space (m.givenByFunctions m.functions)) (here offset : Nat) :
    ∃ ctx', Items.checkSection ctx 6 m.globals.length here
        ⟨offset, m.globals.flatMap Encode.globalDef⟩ = .ok ctx' ∧
      ctx'.Has space (m.givenByGlobals m.globals) := by
  have hstart : m.givenByFunctions m.functions = m.givenByGlobals [] := by
    simp [givenByGlobals, givenByFunctions, givenByImports, importedGlobals]
  have hquota : Items.checkQuota ctx 6 m.globals.length = .ok () := by
    refine ModuleContext.checkCount_eq_ok ?_
    show ctx.declarations.globals.size + m.globals.length ≤ _
    rw [h.globals, List.size_toArray, List.length_map]
    exact hl.allGlobals
  rw [hstart] at h
  refine Items.checkSection_eq_ok (fun done ctx => ctx.Has space (m.givenByGlobals done)) rfl hquota h ?_
    here offset
  intro before g after ctx hsplit hctx
  have hmem : g ∈ m.globals := mem_of_split hsplit
  exact Reads.globalEntry hspace hl hw hctx (hw.globals g hmem)

end Globals

/-! ## Exports -/

section Exports

variable {m : Module} {space : TypeSpace} {ctx : ModuleContext} {e : Export}

/-- **What an export names is found,** with a type of the size that is told. -/
theorem Module.item_eq_some (hspace : space.Holds m.types) (hw : m.WellFormed) {done : List Export}
    (h : ctx.Has space (m.givenByExports done)) (he : m.Exports e) :
    ∃ t, ctx.declarations.item? e.sort e.index = some t ∧ t.size space = m.exportSize e := by
  unfold Exports at he
  unfold exportSize
  split at he
  · rename_i hsort
    have hn : m.functionTypes[e.index]? = some m.functionTypes[e.index] := List.getElem?_eq_getElem he
    refine ⟨.function (space.numberAt m.functionTypes[e.index]) false, ?_, ?_⟩
    · rw [hsort]
      show (ctx.declarations.functions[e.index]?).map _ = _
      rw [h.functions, List.getElem?_toArray, List.getElem?_map]
      show ((m.functionTypes[e.index]?).map space.numberAt).map _ = _
      rw [hn]
      rfl
    · rw [hsort, hn]
      exact size_function hspace (hw.functions _ (List.getElem_mem he)) false
  · rename_i hsort
    refine ⟨.global (.ofKind m.globalKinds[e.index]), ?_, ?_⟩
    · rw [hsort]
      show (ctx.declarations.globals[e.index]?).map _ = _
      rw [h.globals, List.getElem?_toArray, List.getElem?_map]
      show ((m.globalKinds[e.index]?).map GlobalType.ofKind).map _ = _
      rw [List.getElem?_eq_getElem he]
      rfl
    · rw [hsort]
      rfl
  · exact he.elim

theorem Module.index_lt (hl : m.IsWithinLimits) (he : m.Exports e) : e.index < operandBound := by
  unfold Exports at he
  split at he
  · exact Nat.lt_of_lt_of_le he (Nat.le_trans hl.functions (by decide))
  · exact Nat.lt_of_lt_of_le he (Nat.le_trans hl.globals (by decide))
  · exact he.elim

/-- **An item is exported** if there is room for its type and its name is new. -/
theorem ModuleContext.exportItem_eq {name : String} {t : ItemType}
    (hsize : ctx.typeSize + t.size ctx.types < ModuleContext.typeSizeLimit)
    (hname : name ∉ ctx.exports.map Prod.fst) :
    ctx.exportItem name t = .ok
      { ctx with
        exports := (name, t) :: ctx.exports
        typeSize := ctx.typeSize + t.size ctx.types } := by
  have hnew : (ctx.exports.any fun e => e.1 == name) = false := by
    refine List.any_eq_false.2 fun e he heq => hname ?_
    exact eq_of_beq heq ▸ List.mem_map_of_mem he
  unfold ModuleContext.exportItem
  rw [ModuleContext.measure_eq hsize]
  show (if ctx.exports.any (fun e => e.1 == name) = true then _ else _) = _
  rw [hnew]
  rfl

/-- **The sort of an export is read back.** -/
theorem Reads.exportSort (sort : ItemSort) :
    Reads Reader.exportSort [Encode.exportSort sort] (· = sort) := by
  refine .bindNil .position fun here _ => .byteBind ?_
  cases sort <;> exact .guarded (by decide) (.pure rfl)

/-- **An export passes.** -/
theorem Reads.exportEntry (hspace : space.Holds m.types) (hl : m.IsWithinLimits) (hw : m.WellFormed)
    {done after : List Export} (h : ctx.Has space (m.givenByExports done))
    (hsplit : m.exports = done ++ e :: after) :
    Reads (Items.exportEntry ctx) (Encode.exportEntry e)
      (·.Has space (m.givenByExports (done ++ [e]))) := by
  obtain rfl := h.types
  have hmem : e ∈ m.exports := mem_of_split hsplit
  have hexports := hw.exports e hmem
  obtain ⟨t, hitem, hsize⟩ := Module.item_eq_some hspace hw h hexports
  have htotal : ctx.typeSize + t.size ctx.types =
      1 + Module.total m.importSize m.imports + Module.total m.exportSize (done ++ [e]) := by
    rw [h.typeSize, hsize, Module.total_append]
    exact Nat.add_assoc ..
  have hroom : ctx.typeSize + t.size ctx.types < ModuleContext.typeSizeLimit := by
    have hlimit := hl.typeSize
    rw [hsplit, List.append_cons, Module.total_append] at hlimit
    omega
  have hname : e.name ∉ ctx.exports.map Prod.fst := by
    have hnodup := hw.exportNames
    rw [hsplit, List.map_append, List.nodup_append] at hnodup
    rw [h.exports, List.mem_reverse]
    exact fun hdone => hnodup.2.2 e.name hdone e.name List.mem_cons_self rfl
  refine .bindNil .position fun here _ => (name (hl.exportNames e hmem)).bind ?_
  rintro _ rfl
  show Reads _ ([Encode.exportSort e.sort] ++ Leb128.unsigned e.index) _
  refine (exportSort e.sort).bind ?_
  rintro _ rfl
  refine (u32 (Module.index_lt hl hexports)).bindLast ?_
  rintro _ rfl
  rw [hitem]
  refine (check (ModuleContext.exportItem_eq hroom hname)).bindLast ?_
  rintro _ rfl
  have hafter : ModuleContext.Has
      { ctx with
        exports := (e.name, t) :: ctx.exports
        typeSize := ctx.typeSize + t.size ctx.types }
      ctx.types (m.givenByExports (done ++ [e])) := by
    refine ⟨rfl, h.functions, h.memories, h.globals, h.defined, ?_, htotal, h.bodies⟩
    show e.name :: ctx.exports.map Prod.fst = _
    rw [h.exports]
    simp [Module.givenByExports]
  refine .pure ?_
  split
  · exact hafter.refer [e.index]
  · exact hafter

/-- **The exports of a module pass.** -/
theorem Module.checkExports (hspace : space.Holds m.types) (hl : m.IsWithinLimits) (hw : m.WellFormed)
    (h : ctx.Has space (m.givenByGlobals m.globals)) (here offset : Nat) :
    ∃ ctx', Items.checkSection ctx 7 m.exports.length here
        ⟨offset, m.exports.flatMap Encode.exportEntry⟩ = .ok ctx' ∧
      ctx'.Has space (m.givenByExports m.exports) := by
  have hquota : Items.checkQuota ctx 7 m.exports.length = .ok () := by
    have hnone : ctx.exports.length = 0 := by
      rw [← List.length_map, h.exports]
      rfl
    refine ModuleContext.checkCount_eq_ok ?_
    rw [hnone, Nat.zero_add]
    exact hl.exports
  refine Items.checkSection_eq_ok (fun done ctx => ctx.Has space (m.givenByExports done)) rfl hquota h ?_
    here offset
  intro before e after ctx hsplit hctx
  exact Reads.exportEntry hspace hl hw hctx hsplit

end Exports

/-! ## Data -/

section Data

variable {m : Module} {space : TypeSpace} {ctx : ModuleContext}

/-- **A data segment passes.**  It adds nothing, whether or not there are bodies. -/
theorem Reads.dataEntry (hspace : space.Holds m.types) (hl : m.IsWithinLimits) (hw : m.WellFormed)
    {g : Given}
    (h : ctx.Has space g) (hfunctions : g.functions = m.functionTypes) (hmemory : g.memories = m.memories)
    (hglobals : g.globals = m.globalKinds) {data : Bytes} (hdata : data.length < 4294967296) :
    Reads (Items.dataEntry ctx) (Encode.segment data) (·.Has space g) := by
  have hflags : Leb128.unsigned 0 = [0x00] := by
    rw [Leb128.unsigned]
    rfl
  have hkind : (ConstExpr.globalGet Layout.dataStartGlobal).HasKind m.importedGlobals .i32 := hw.dataStart
  have hfirst : ∃ pages, ctx.declarations.memories[0]? = some (.ofPages pages) := by
    obtain ⟨pages, hpages, -⟩ := hw.memory
    rw [h.memories, hmemory, hpages]
    exact ⟨pages, rfl⟩
  obtain ⟨pages, hpages⟩ := hfirst
  have hprovides := Module.provides hspace hw h hfunctions hmemory
  show Reads _ ([0x00] ++ Encode.constExpr (.globalGet Layout.dataStartGlobal) ++ Encode.sized data) _
  rw [List.append_assoc, ← hflags]
  refine .bindNil .position fun here _ => (u32 (by decide)).bind ?_
  rintro _ rfl
  refine .guarded (by decide) (.guarded (by decide) ?_)
  refine .bindNil (P := (· = 0)) (.pure rfl) ?_
  rintro _ rfl
  refine (constExpr (hkind.fits (Module.importedGlobals_le hl))).bind fun ops hops => ?_
  refine (sized hdata).bindLast fun _ _ => ?_
  refine .bindNil (P := (· = .ofPages pages)) ?_ ?_
  · rw [Reader.lookup, hpages]
    exact .pure rfl
  · rintro _ rfl
    have hglobal : (ConstExpr.globalGet Layout.dataStartGlobal).HasKind g.globals .i32 :=
      hglobals ▸ hkind.append _
    split
    · refine (h.constExpr hprovides hglobal hops).mono ?_
      rintro _ rfl
      exact h.refer _
    · exact (h.checkConst hprovides hglobal hops).bindNil fun _ _ => .pure h

/-- **The data of a module passes,** once there are bodies. -/
theorem Module.checkData (hspace : space.Holds m.types) (hl : m.IsWithinLimits) (hw : m.WellFormed)
    {contents : List Slice} (h : ctx.Has space (m.givenWithBodies contents))
    (hdata : m.data.length < 4294967296) (here offset : Nat) :
    ∃ ctx', Items.checkSection ctx 11 [m.data].length here ⟨offset, [m.data].flatMap Encode.segment⟩ =
        .ok ctx' ∧
      ctx'.Has space (m.givenWithBodies contents) := by
  refine Items.checkSection_eq_ok (fun _ ctx => ctx.Has space (m.givenWithBodies contents)) rfl rfl h ?_
    here offset
  intro before d after ctx hsplit hctx
  have hmem : d ∈ [m.data] := mem_of_split hsplit
  rw [List.mem_singleton.1 hmem]
  exact Reads.dataEntry hspace hl hw hctx rfl rfl rfl hdata

end Data

end Wasm
end WasmLowering
