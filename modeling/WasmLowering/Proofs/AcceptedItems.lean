/-
# What the items of a module that passed have given

The converse of `WasmLowering.Proofs.ItemChecking`.  There the items of a
well-formed module that is within the limits pass, and lead to what they give.
Here they have passed, and so have led to the same:

| section               | found out                                              |
|-----------------------|--------------------------------------------------------|
| types                 | the type space holds them, and their arity is limited  |
| imports               | functions have types that are there                    |
| functions             | as before, and there are not too many                  |
| globals               | there are not too many                                 |
| exports, data         | they change none of the above                          |
-/

import WasmLowering.Proofs.Accepting

namespace WasmLowering
namespace Wasm

/-! ## Going through a section -/

/-- **The items of a section that passed were taken one after the other.**  What holds of the items before
one and, if its bytes are taken, of the same with the item, holds of all. -/
theorem inv_of_items {α β : Type} {item : α → Reader α} {enc : β → Bytes} (Inv : List β → α → Prop) :
    (done xs : List β) → (a : α) → Inv done a →
      (∀ before x after a, done ++ xs = before ++ x :: after → Inv before a →
        Takes (item a) (enc x) (Inv (before ++ [x]))) →
      ∀ offset a' s, items item xs.length a ⟨offset, xs.flatMap enc⟩ = .ok (a', s) → Inv (done ++ xs) a'
  | done, [], a, h, _, offset, a', s, hrun => by
    cases hrun
    rwa [List.append_nil]
  | done, x :: xs, a, h, hstep, offset, a', s, hrun => by
    rw [List.flatMap_cons] at hrun
    obtain ⟨⟨b, mid⟩, hitem, hrest⟩ := ok_of_bind (x := item a ⟨offset, enc x ++ xs.flatMap enc⟩) hrun
    obtain ⟨rfl, hb⟩ := hstep done x xs a rfl h offset (xs.flatMap enc) b mid hitem
    have hassoc : done ++ x :: xs = done ++ [x] ++ xs := (List.append_cons ..)
    rw [hassoc] at hstep ⊢
    exact inv_of_items Inv (done ++ [x]) xs b hb hstep _ a' s hrest

theorem ok_of_mapError {ε ε' α : Type} {f : ε → ε'} {x : Except ε α} {a : α} (h : x.mapError f = .ok a) :
    x = .ok a := by
  cases x with
  | ok b =>
    cases h
    rfl
  | error e => cases h

namespace Items

variable {ctx ctx' : ModuleContext} {id count here : Nat} {content : Slice}

/-- **A section that passed** had room for its items, and they were read. -/
theorem ok_of_checkSection {item : ModuleContext → Reader ModuleContext} (hitem : item? id = some item)
    (h : checkSection ctx id count here content = .ok ctx') :
    checkQuota ctx id count = .ok () ∧ ∃ s, items item count ctx content = .ok (ctx', s) := by
  unfold checkSection at h
  obtain ⟨_, hquota, h⟩ := ok_of_bind h
  rw [hitem] at h
  obtain ⟨⟨_, s⟩, hrun, heq⟩ := ok_of_bind (x := items item count ctx content) h
  cases heq
  exact ⟨ok_of_mapError hquota, s, hrun⟩

end Items

theorem ModuleContext.le_of_checkCount {what : String} {limit count : Nat}
    (h : ModuleContext.checkCount what limit count = .ok ()) : count ≤ limit := by
  unfold ModuleContext.checkCount at h
  split at h
  · cases h
  · rename_i hle
    exact Nat.le_of_not_lt hle

/-! ## Types -/

/-- **A type that was defined** is held. -/
theorem Takes.typeEntry {ctx : ModuleContext} {done : List FuncType} (h : ctx.HasTypes done) (t : FuncType) :
    Takes (Items.typeEntry ctx) (Encode.funcType t)
      (fun ctx' => ctx'.HasTypes (done ++ [t]) ∧ t.params.length ≤ Reader.arityLimit) := by
  obtain ⟨space, hdefine, hholds, hconsistent⟩ := TypeSpace.define_definition h.holds h.consistent t
  refine .atPosition fun here => (typeGroup t).bindLast ?_
  rintro _ ⟨rfl, hparams⟩
  refine .check fun ctx' hok => ?_
  obtain ⟨_, -, hok⟩ := ok_of_bind hok
  obtain ⟨space', hdefine', hok⟩ := ok_of_bind hok
  cases hdefine.symm.trans hdefine'
  cases hok
  exact ⟨⟨hholds, hconsistent, by rw [h.start]; rfl⟩, hparams⟩

/-- **The types of a module that passed** are held, and their arity is within the limit. -/
theorem Module.types_of_check {m : Module} {here offset : Nat} {ctx : ModuleContext}
    (h : Items.checkSection (.start .empty) 1 m.types.length here ⟨offset, m.types.flatMap Encode.funcType⟩ =
      .ok ctx) :
    ∃ space, space.Holds m.types ∧ ctx.Has space (m.givenByImports []) ∧
      ∀ t ∈ m.types, t.params.length ≤ Reader.arityLimit := by
  have hstart : (ModuleContext.start .empty).HasTypes [] := ⟨⟨rfl, nofun⟩, nofun, rfl⟩
  obtain ⟨-, s, hrun⟩ := Items.ok_of_checkSection rfl h
  obtain ⟨hctx, harity⟩ := inv_of_items
    (fun done ctx => ctx.HasTypes done ∧ ∀ t ∈ done, t.params.length ≤ Reader.arityLimit) [] m.types _
    ⟨hstart, nofun⟩ (fun before t after ctx _ hinv => by
      intro offset rest ctx' s hrun
      obtain ⟨hs, htypes, hparams⟩ := Takes.typeEntry hinv.1 t offset rest ctx' s hrun
      exact ⟨hs, htypes, List.forall_mem_append.2 ⟨hinv.2, List.forall_mem_singleton.2 hparams⟩⟩)
    offset ctx s hrun
  refine ⟨ctx.types, hctx.holds, ?_, harity⟩
  rw [hctx.start]
  exact ⟨rfl, rfl, rfl, rfl, rfl, rfl, rfl, rfl⟩

/-! ## Imports -/

/-- **A type that was measured** changed the size of all. -/
theorem ModuleContext.ok_of_measure {ctx ctx' : ModuleContext} {t : ItemType} (h : ctx.measure t = .ok ctx') :
    ctx' = { ctx with typeSize := ctx.typeSize + t.size ctx.types } := by
  by_cases hsize : ctx.typeSize + t.size ctx.types < ModuleContext.typeSizeLimit
  · rw [ModuleContext.measure_eq hsize] at h
    exact (Except.ok.inj h).symm
  · have hrefused : ctx.measure t = .error (.typeSizeLimit ModuleContext.typeSizeLimit) :=
      if_pos (Nat.le_of_not_lt hsize)
    rw [hrefused] at h
    cases h

/-- **What an import changed.** -/
theorem ModuleContext.ok_of_importItem {ctx ctx' : ModuleContext} {name : ImportName} {written : ItemType}
    (h : ctx.importItem name written = .ok ctx') :
    ∃ t, written.resolve ctx.types = .ok t ∧ ctx' =
      { ctx with
        declarations := ctx.declarations.add t
        imports := (name, t) :: ctx.imports
        typeSize := ctx.typeSize + t.size ctx.types } := by
  obtain ⟨t, hresolve, h⟩ := ok_of_bind h
  obtain ⟨_, -, h⟩ := ok_of_bind h
  have htypes : (ctx.declarations.add t).types = ctx.types := by cases t <;> rfl
  refine ⟨t, hresolve, ?_⟩
  rw [← htypes]
  exact ModuleContext.ok_of_measure h

/-- **A function type that was resolved** is there. -/
theorem TypeSpace.Holds.ok_of_resolveFunction {space : TypeSpace} {types : List FuncType} (h : space.Holds types)
    {i n : Nat} (hok : ItemType.resolveFunction space i = .ok n) : i < types.length ∧ n = space.numberAt i := by
  have hi : i < types.length := by
    obtain ⟨n', hnumber, -⟩ := ok_of_bind hok
    rw [← h.size]
    unfold TypeSpace.number at hnumber
    cases hget : space.numbers[i]? with
    | none =>
      rw [hget] at hnumber
      cases hnumber
    | some n => exact (Array.getElem?_eq_some_iff.1 hget).1
  rw [h.resolveFunction hi] at hok
  exact ⟨hi, (Except.ok.inj hok).symm⟩

/-- **An import whose type was resolved** is in order. -/
theorem EntityFits.of_resolve {space : TypeSpace} {types : List FuncType} (hspace : space.Holds types)
    {e : Entity} {t : ItemType} (h : (importType e).resolve space = .ok t) : EntityFits types e := by
  cases e with
  | function i =>
    obtain ⟨n, hresolve, -⟩ := ok_of_bind h
    exact (hspace.ok_of_resolveFunction hresolve).1
  | global k => trivial
  | memory pages =>
    obtain ⟨_, hcheck, -⟩ := ok_of_bind h
    obtain ⟨_, -, hcheck⟩ := ok_of_bind hcheck
    obtain ⟨_, -, hcheck⟩ := ok_of_bind hcheck
    obtain ⟨_, hlimit, -⟩ := ok_of_bind hcheck
    have hpages : (decide (pages ≤ 65536) && true) = true := ItemType.require_eq_ok.1 hlimit
    rw [Bool.and_true] at hpages
    show pages ≤ 65536
    exact of_decide_eq_true hpages

/-- **An import that passed** brought in what is written. -/
theorem Takes.importEntry {m : Module} {space : TypeSpace} (hspace : space.Holds m.types) {ctx : ModuleContext}
    {done : List Import} (h : ctx.Has space (m.givenByImports done)) (i : Import) :
    Takes (Items.importEntry ctx) (Encode.importEntry i)
      (fun ctx' => ctx'.Has space (m.givenByImports (done ++ [i])) ∧ EntityFits m.types i.entity) := by
  obtain rfl := h.types
  rw [Encode.importEntry, List.append_assoc]
  refine .atPosition fun here => (name i.owner).bind ?_
  rintro _ rfl
  refine (name i.name).bind ?_
  rintro _ rfl
  refine .lookBind (Looks.refuseCompact i.name i.entity) ((itemType i.entity).bindLast ?_)
  rintro _ rfl
  refine .check fun ctx' hok => ?_
  obtain ⟨t, hresolve, rfl⟩ := ModuleContext.ok_of_importItem hok
  have hentity := EntityFits.of_resolve hspace hresolve
  rw [Module.resolve_importType hspace hentity] at hresolve
  cases hresolve
  exact ⟨h.addImport (i.owner, i.name) (Module.size_importType hspace hentity), hentity⟩

/-- **The imports of a module that passed** have brought in what is written, with types that are there. -/
theorem Module.imports_of_check {m : Module} {space : TypeSpace} (hspace : space.Holds m.types)
    {ctx ctx' : ModuleContext} (h : ctx.Has space (m.givenByImports [])) {here offset : Nat}
    (hcheck : Items.checkSection ctx 2 m.imports.length here ⟨offset, m.imports.flatMap Encode.importEntry⟩ =
      .ok ctx') :
    ctx'.Has space (m.givenByImports m.imports) ∧ ∀ i ∈ m.imports, EntityFits m.types i.entity := by
  obtain ⟨-, s, hrun⟩ := Items.ok_of_checkSection rfl hcheck
  refine inv_of_items (fun done ctx => ctx.Has space (m.givenByImports done) ∧
    ∀ i ∈ done, EntityFits m.types i.entity) [] m.imports ctx ⟨h, nofun⟩ ?_ offset ctx' s hrun
  intro before i after ctx _ hinv offset rest ctx' s hrun
  obtain ⟨hs, hctx, hentity⟩ := Takes.importEntry hspace hinv.1 i offset rest ctx' s hrun
  exact ⟨hs, hctx, List.forall_mem_append.2 ⟨hinv.2, List.forall_mem_singleton.2 hentity⟩⟩

/-! ## Functions -/

/-- **A defined function that passed** has a type that is there. -/
theorem Takes.functionEntry {m : Module} {space : TypeSpace} (hspace : space.Holds m.types) {ctx : ModuleContext}
    {done : List Nat} (h : ctx.Has space (m.givenByFunctions done)) (t : Nat) :
    Takes (Items.functionEntry ctx) (Leb128.unsigned t)
      (fun ctx' => ctx'.Has space (m.givenByFunctions (done ++ [t])) ∧ t < m.types.length) := by
  obtain rfl := h.types
  refine .atPosition fun here => (u32 t).bindLast ?_
  rintro t ⟨rfl, -⟩
  refine (check fun n hok => hok).bindLast fun n hok => ?_
  obtain ⟨ht, rfl⟩ := hspace.ok_of_resolveFunction hok
  have hsig : ctx.types.signature? (ctx.types.numberAt t) = some (m.typeAt t).signature := by
    rw [Module.typeAt, List.getElem?_eq_getElem ht]
    exact hspace.signature (List.getElem?_eq_getElem ht)
  refine .pure ⟨⟨rfl, ?_, h.memories, h.globals, ?_, h.exports, h.typeSize, h.bodies⟩, ht⟩
  · show ctx.declarations.functions.push (ctx.types.numberAt t) = _
    rw [h.functions, List.push_toArray]
    simp [Module.givenByFunctions]
  · show ctx.defined.push _ = _
    rw [hsig, h.defined, List.push_toArray]
    simp [Module.givenByFunctions]

/-- **The defined functions of a module that passed** have types that are there, and are not too many. -/
theorem Module.functions_of_check {m : Module} {space : TypeSpace} (hspace : space.Holds m.types)
    {ctx ctx' : ModuleContext} (h : ctx.Has space (m.givenByImports m.imports)) {here offset : Nat}
    (hcheck : Items.checkSection ctx 3 m.functions.length here ⟨offset, m.functions.flatMap Leb128.unsigned⟩ =
      .ok ctx') :
    ctx'.Has space (m.givenByFunctions m.functions) ∧ (∀ t ∈ m.functions, t < m.types.length) ∧
      m.functionTypes.length ≤ ModuleContext.itemLimit := by
  have hstart : m.givenByImports m.imports = m.givenByFunctions [] := by
    simp [givenByFunctions, givenByImports, importedFunctions]
  obtain ⟨hquota, s, hrun⟩ := Items.ok_of_checkSection rfl hcheck
  have hcount : m.functionTypes.length ≤ ModuleContext.itemLimit := by
    have hle : ctx.declarations.functions.size + m.functions.length ≤ ModuleContext.itemLimit :=
      ModuleContext.le_of_checkCount hquota
    rw [h.functions, List.size_toArray, List.length_map] at hle
    rw [functionTypes, List.length_append]
    exact hle
  rw [hstart] at h
  obtain ⟨hctx, htypes⟩ := inv_of_items (fun done ctx => ctx.Has space (m.givenByFunctions done) ∧
    ∀ t ∈ done, t < m.types.length) [] m.functions ctx ⟨h, List.forall_mem_nil _⟩ (by
      intro before t after ctx _ hinv offset rest ctx' s hrun
      obtain ⟨hs, hctx, ht⟩ := Takes.functionEntry hspace hinv.1 t offset rest ctx' s hrun
      exact ⟨hs, hctx, List.forall_mem_append.2 ⟨hinv.2, List.forall_mem_singleton.2 ht⟩⟩) offset ctx' s hrun
  exact ⟨hctx, htypes, hcount⟩

/-! ## Globals -/

/-- **A constant expression that passed** changed nothing but what bodies may refer to. -/
theorem Takes.constExpr {ctx : ModuleContext} {type : ValType} {ops : List Located} :
    Takes (Items.constExpr ctx type ops) [] (· = ctx.refer (Items.referredBy ops)) := by
  have hcheck : Takes (Items.checkConst (ctx.refer (Items.referredBy ops)) type ops) [] fun _ => True :=
    (lift fun _ _ => trivial).bindNil fun _ _ => .pure trivial
  exact hcheck.bindNil fun _ _ => .pure rfl

/-- **A defined global that passed** has the kind that is written. -/
theorem Takes.globalEntry {m : Module} {space : TypeSpace} {ctx : ModuleContext} {done : List GlobalDef}
    (h : ctx.Has space (m.givenByGlobals done)) {g : GlobalDef} (hinit : g.init.opcode.Fits) :
    Takes (Items.globalEntry ctx) (Encode.globalDef g) (·.Has space (m.givenByGlobals (done ++ [g]))) := by
  show Takes _ ([kindByte g.kind, 0x00] ++ Encode.constExpr g.init) _
  refine .atPosition fun here => (of_reads (.globalType g.kind)).bind ?_
  rintro _ rfl
  refine (of_reads (.constExpr hinit)).bindLast fun ops _ => ?_
  refine (of_reads (.check (ItemType.resolveGlobal_ofKind ctx.types g.kind))).bindLast ?_
  rintro _ rfl
  refine constExpr.bindNil ?_
  rintro _ rfl
  refine .pure ⟨h.types, h.functions, h.memories, ?_, h.defined, h.exports, h.typeSize, h.bodies⟩
  show ctx.declarations.globals.push (.ofKind g.kind) = _
  rw [h.globals, List.push_toArray]
  simp [Module.givenByGlobals]

/-- **The defined globals of a module that passed** have the kinds that are written, and are not too many. -/
theorem Module.globals_of_check {m : Module} {space : TypeSpace} {ctx ctx' : ModuleContext}
    (h : ctx.Has space (m.givenByFunctions m.functions))
    (hinit : ∀ g ∈ m.globals, ∀ i, g.init = .globalGet i → i < m.importedGlobals.length) {here offset : Nat}
    (hcheck : Items.checkSection ctx 6 m.globals.length here ⟨offset, m.globals.flatMap Encode.globalDef⟩ =
      .ok ctx') :
    ctx'.Has space (m.givenByGlobals m.globals) ∧ m.globalKinds.length ≤ ModuleContext.itemLimit := by
  have hstart : m.givenByFunctions m.functions = m.givenByGlobals [] := by
    simp [givenByGlobals, givenByFunctions, givenByImports, importedGlobals]
  obtain ⟨hquota, s, hrun⟩ := Items.ok_of_checkSection rfl hcheck
  have hcount : m.importedGlobals.length + m.globals.length ≤ ModuleContext.itemLimit := by
    have hle : ctx.declarations.globals.size + m.globals.length ≤ ModuleContext.itemLimit :=
      ModuleContext.le_of_checkCount hquota
    rw [h.globals, List.size_toArray, List.length_map] at hle
    exact hle
  have hlimit : ModuleContext.itemLimit ≤ operandBound := by decide
  rw [hstart] at h
  refine ⟨inv_of_items (fun done ctx => ctx.Has space (m.givenByGlobals done)) [] m.globals ctx h ?_ offset ctx'
    s hrun, ?_⟩
  · intro before g after ctx hsplit hctx
    have hfits : g.init.opcode.Fits := by
      cases hg : g.init with
      | const v => trivial
      | globalGet i =>
        have hi := hinit g (mem_of_split hsplit) i hg
        show i < operandBound
        omega
    exact Takes.globalEntry hctx hfits
  · rw [globalKinds, List.length_append, List.length_map]
    exact hcount

/-! ## Exports and data -/

/-- One context declares the same as another, what bodies may refer to aside. -/
structure ModuleContext.SameItems (ctx ctx' : ModuleContext) : Prop where
  types : ctx'.declarations.types = ctx.declarations.types
  functions : ctx'.declarations.functions = ctx.declarations.functions
  memories : ctx'.declarations.memories = ctx.declarations.memories
  globals : ctx'.declarations.globals = ctx.declarations.globals
  defined : ctx'.defined = ctx.defined
  bodies : ctx'.bodies = ctx.bodies

namespace ModuleContext.SameItems

variable {ctx ctx' ctx'' : ModuleContext}

theorem refl (ctx : ModuleContext) : ctx.SameItems ctx := ⟨rfl, rfl, rfl, rfl, rfl, rfl⟩

theorem trans (h : ctx.SameItems ctx') (h' : ctx'.SameItems ctx'') : ctx.SameItems ctx'' :=
  ⟨h'.types.trans h.types, h'.functions.trans h.functions, h'.memories.trans h.memories,
    h'.globals.trans h.globals, h'.defined.trans h.defined, h'.bodies.trans h.bodies⟩

theorem refer (ctx : ModuleContext) (functions : List Nat) : ctx.SameItems (ctx.refer functions) :=
  ⟨rfl, rfl, rfl, rfl, rfl, rfl⟩

/-- **A context that declares the same has the same,** names and sizes aside. -/
theorem has {space : TypeSpace} {g : Given} (h : ctx.SameItems ctx') (hctx : ctx.Has space g) :
    ∃ exports typeSize, ctx'.Has space { g with exports := exports, typeSize := typeSize } :=
  ⟨(ctx'.exports.map Prod.fst).reverse, ctx'.typeSize, h.types.trans hctx.types,
    h.functions.trans hctx.functions, h.memories.trans hctx.memories, h.globals.trans hctx.globals,
    h.defined.trans hctx.defined, (List.reverse_reverse _).symm, rfl, h.bodies.trans hctx.bodies⟩

end ModuleContext.SameItems

/-- Whatever a reader gives has a property. -/
def Yields {α : Type} (r : Reader α) (P : α → Prop) : Prop := ∀ s a s', r s = .ok (a, s') → P a

namespace Yields

variable {α β : Type} {r : Reader α} {P : α → Prop} {Q : β → Prop}

theorem pure {a : α} (h : P a) : Yields (Pure.pure a) P := by
  intro s b s' hrun
  cases hrun
  exact h

/-- **What comes last is given.** -/
theorem bind {f : α → Reader β} (h : Yields r P) (hf : ∀ a, P a → Yields (f a) Q) : Yields (r >>= f) Q := by
  intro s b s' hrun
  obtain ⟨⟨a, mid⟩, hr, hb⟩ := ok_of_bind (x := r s) hrun
  exact hf a (h s a mid hr) mid b s' hb

/-- **What comes first may be anything.** -/
theorem andThen {f : α → Reader β} (hf : ∀ a, Yields (f a) Q) : Yields (r >>= f) Q :=
  bind (P := fun _ => True) (fun _ _ _ _ => trivial) fun a _ => hf a

theorem fails (h : Fails r) : Yields r P := by
  intro s a s' hrun
  obtain ⟨e, he⟩ := h s
  rw [he] at hrun
  cases hrun

theorem check {offset : Nat} {x : Except Violation α} (h : ∀ a, x = .ok a → P a) :
    Yields (Reader.check offset x) P := by
  cases x with
  | ok a => exact .pure (h a rfl)
  | error cause => exact .fails fun _ => ⟨_, rfl⟩

/-- **Either way it is given.** -/
theorem ite {p : Prop} [Decidable p] {r' : Reader α} (h : Yields r P) (h' : Yields r' P) :
    Yields (if p then r else r') P := by
  split
  · exact h
  · exact h'

end Yields

/-- **An export that passed** changed no items. -/
theorem Items.exportEntry_yields (ctx : ModuleContext) : Yields (exportEntry ctx) ctx.SameItems := by
  refine .andThen fun here => .andThen fun name => .andThen fun sort => .andThen fun index => ?_
  cases ctx.declarations.item? sort index with
  | none => exact .fails fun _ => ⟨_, rfl⟩
  | some t =>
    refine (Yields.check fun ctx' hok => ?_ : Yields _ ctx.SameItems).bind fun ctx' hctx => .pure ?_
    · obtain ⟨measured, hmeasure, hok⟩ := ok_of_bind hok
      obtain rfl := ModuleContext.ok_of_measure hmeasure
      split at hok
      · cases hok
      · cases hok
        exact ⟨rfl, rfl, rfl, rfl, rfl, rfl⟩
    · split
      · exact hctx.trans (.refer ctx' _)
      · exact hctx

/-- **A data segment that passed** changed no items. -/
theorem Items.dataEntry_yields (ctx : ModuleContext) : Yields (dataEntry ctx) ctx.SameItems := by
  have hconst (type : ValType) (ops : List Located) : Yields (constExpr ctx type ops) ctx.SameItems :=
    .andThen fun _ => .pure (.refer ctx _)
  refine .andThen fun here => .andThen fun flags => .ite (.fails fun _ => ⟨_, rfl⟩) (.ite ?_ ?_)
  · exact .andThen fun _ => .pure (.refl ctx)
  · refine .ite (.andThen fun index => ?_) (.andThen fun index => ?_)
    all_goals
      refine .andThen fun address => .andThen fun _ => .andThen fun memory => ?_
      split
      · exact hconst _ _
      · exact .andThen fun _ => .pure (.refl ctx)

/-- **A section that passed changed no items** if none of its entries does. -/
theorem Items.sameItems_of_check {id count here : Nat} {content : Slice} {ctx ctx' : ModuleContext}
    {item : ModuleContext → Reader ModuleContext} (hitem : item? id = some item)
    (hyields : ∀ ctx : ModuleContext, Yields (item ctx) ctx.SameItems)
    (h : checkSection ctx id count here content = .ok ctx') : ctx.SameItems ctx' := by
  obtain ⟨-, s, hrun⟩ := ok_of_checkSection hitem h
  have hitems (count : Nat) : ∀ ctx : ModuleContext, Yields (items item count ctx) ctx.SameItems := by
    induction count with
    | zero => exact fun ctx => .andThen fun _ => .ite (.pure (.refl ctx)) (.fails fun _ => ⟨_, rfl⟩)
    | succ count ih =>
      refine fun ctx => (hyields ctx).bind fun mid hmid s last s' hrun => ?_
      exact hmid.trans (ih mid s last s' hrun)
  exact hitems count ctx content ctx' s hrun

end Wasm
end WasmLowering
