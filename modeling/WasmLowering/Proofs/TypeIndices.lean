/-
# Type indices are read back from bytes

`definedFunctionTypes` walks through the payloads of a module and collects the
items of the function section.  On the bytes of a module it finds the type indices
that were written, just if the size of every section can be told in 32 bits, as the
format has it:

| section                      | the walk                                    |
|------------------------------|---------------------------------------------|
| functions                    | reads one index after the other             |
| code                         | cuts the bodies apart by their sizes        |
| all others                   | are passed over by their sizes              |

`Lists` tells what the walk gives from some section on, and under which condition,
and each section is one step of it.  The functions of an assembled unit have the
indices right behind the imported ones, so these are what is read.
-/

import WasmLowering.Proofs.AcceptedModules
import WasmLowering.Proofs.Summaries

namespace WasmLowering
namespace Wasm

/-- The sizes of contents can be told in 32 bits. -/
def SizesFit (contents : List Bytes) : Prop := ∀ content ∈ contents, content.length < 4294967296

instance (contents : List Bytes) : Decidable (SizesFit contents) :=
  inferInstanceAs (Decidable (∀ content ∈ contents, content.length < 4294967296))

/-! ## From section to section -/

/-- The rest of the bytes of a module, sections with some contents, is walked through just if their sizes fit,
and that gives some type indices, those that are found before first. -/
def Lists (limit : Nat) (p : Progress) (found : Array Nat) (bytes : Bytes) (contents : List Bytes)
    (types : Array Nat) : Prop :=
  ∀ offset out, Payload.foldM addFunctionTypes found (Payload.upTo limit [.inModule p offset bytes]) = .ok out ↔
    SizesFit contents ∧ out = types

namespace Lists

variable {limit : Nat} {p : Progress} {found found' types : Array Nat} {rest : Bytes} {contents : List Bytes}

/-- **A section is walked through if its size fits,** and then the rest is. -/
theorem step {id : UInt8} {content : Bytes} {p' : Progress} {P : Payload → Prop} (hid : id ≠ 0)
    (hid' : id.toNat < 128)
    (hread : content.length < 4294967296 → Reads (Payload.readSection p id.toNat content.length) content
      (fun r => P r.1 ∧ r.2 = p'))
    (hadd : ∀ payload, P payload → addFunctionTypes found payload = .ok found')
    (hrest : content.length < 4294967296 → Lists limit p' found' rest contents types) :
    Lists (limit + 1) p found (Encode.sect id content ++ rest) (content :: contents) types := by
  intro offset out
  rw [SizesFit, List.forall_mem_cons, and_assoc]
  by_cases hsize : content.length < 4294967296
  · obtain ⟨payload, offset', hnext, hp⟩ := Frame.next_section hid hid' hsize (hread hsize) offset rest
    rw [Payload.foldM_upTo hnext (hadd payload hp), hrest hsize offset' out]
    exact (and_iff_right hsize).symm
  · constructor
    · intro hfold
      obtain ⟨_, _, _, hnext, -⟩ := Payload.foldM_eq_ok hfold
      exact absurd (Frame.size_of_next hid hnext) hsize
    · intro hfits
      exact absurd hfits.1 hsize

/-- **A section of items is walked through,** and then the rest is. -/
theorem items {α : Type} {enc : α → Bytes} {xs : List α} {id : UInt8} {rank : Nat}
    (hid : id.toNat ≠ 10 ∧ id.toNat ∈ Payload.counted) (hrank : Payload.rank? id.toNat = some rank)
    (hlater : p.rank < rank) (hdata : (p.after rank id.toNat xs.length).dataCount = none)
    (henc : ∀ x, enc x ≠ [])
    (hadd : ∀ here offset, addFunctionTypes found (.items id.toNat xs.length here ⟨offset, xs.flatMap enc⟩) =
      .ok found')
    (hrest : (Encode.list enc xs).length < 4294967296 →
      Lists limit (p.after rank id.toNat xs.length) found' rest contents types) :
    Lists (limit + 1) p found (Encode.sect id (Encode.list enc xs) ++ rest) (Encode.list enc xs :: contents)
      types := by
  have hsmall : ∀ n ∈ Payload.counted, n ≠ 0 ∧ n < 128 := by decide
  obtain ⟨hzero, hlarge⟩ := hsmall id.toNat hid.2
  have hxs := Encode.length_le_list henc xs
  refine step (fun h => hzero (congrArg UInt8.toNat h)) hlarge
    (fun hsize => Reads.sectionItems ⟨hzero, hid⟩ hrank hlater hdata (Nat.lt_of_le_of_lt hxs hsize)) ?_ hrest
  rintro _ ⟨here, offset, rfl⟩
  exact hadd here offset

/-- **The code section is walked through,** and then the rest is. -/
theorem code {bs : List FuncBody} (hlater : p.rank < 12) (hfunctions : p.functions = some bs.length)
    (hrest : Lists limit { p with rank := 12, bodies := some bs.length } found rest contents types) :
    Lists (limit + 1) p found (Encode.sect 10 (Encode.list Encode.body bs) ++ rest)
      (Encode.list Encode.body bs :: contents) types := by
  have hbs := Encode.length_le_list (fun b => Encode.sized_ne_nil (Encode.bodyContent b)) bs
  refine step (by decide) (by decide)
    (fun hsize => Reads.sectionCode hlater hfunctions (Nat.lt_of_le_of_lt hbs hsize) hsize) ?_ fun _ => hrest
  rintro _ ⟨contents, rfl, -⟩
  rfl

/-- **The walk ends** where the bytes do. -/
theorem finish (hp : p.mismatch? = none) : Lists (limit + 1) p found [] [] found := by
  intro offset out
  have hnone : Payload.upTo limit [] = ([], none) := by cases limit <;> rfl
  have hfits : SizesFit [] := fun _ h => nomatch h
  rw [Payload.foldM_upTo (Frame.next_finish hp offset) rfl, hnone, and_iff_right hfits]
  constructor
  · rintro ⟨⟩
    rfl
  · rintro rfl
    rfl

end Lists

/-! ## Modules -/

/-- **The items of the function section are read** if they are below `2 ^ 32`. -/
theorem addFunctionTypes_functions {ts : List Nat} (h : ∀ t ∈ ts, t < 4294967296) (here offset : Nat) :
    addFunctionTypes #[] (.items 3 ts.length here ⟨offset, ts.flatMap Leb128.unsigned⟩) = .ok ts.toArray := by
  obtain ⟨_, s, hread, rfl⟩ : ∃ types s, items (fun types : Array Nat => return types.push (← Reader.u32))
      ts.length #[] ⟨offset, ts.flatMap Leb128.unsigned⟩ = .ok (types, s) ∧ types = ts.toArray := by
    refine items_eq_ok (fun done types => types = done.toArray) [] ts #[] rfl ?_ offset
    intro before t after types hsplit hbefore
    refine (Reads.u32 (h t (mem_of_split hsplit))).map ?_
    rintro _ rfl
    rw [hbefore, List.push_toArray]
  show (items _ ts.length #[] ⟨offset, ts.flatMap Leb128.unsigned⟩ >>= fun p => .ok p.1) = _
  rw [hread]
  rfl

namespace Module

variable {m : Module}

/-- The contents of the sections of a module, in order. -/
def contents (m : Module) : List Bytes :=
  [ Encode.list Encode.funcType m.types,
    Encode.list Encode.importEntry m.imports,
    Encode.list Leb128.unsigned m.functions,
    Encode.list Encode.globalDef m.globals,
    Encode.list Encode.exportEntry m.exports,
    Encode.list Encode.body m.bodies,
    Encode.list Encode.segment [m.data] ]

/-- **The sections of a module are walked through** just if their sizes fit. -/
theorem lists (hbodies : m.bodies.length = m.functions.length) (htypes : ∀ t ∈ m.functions, t < m.types.length)
    (limit : Nat) : Lists (limit + 8) .start #[] m.sections m.contents m.functions.toArray := by
  have hcounts : some m.functions.length = some m.bodies.length := congrArg some hbodies.symm
  have hcount : m.types.length ≤ (Encode.list Encode.funcType m.types).length :=
    Encode.length_le_list (fun _ => List.cons_ne_nil _ _) m.types
  refine .items (by decide) rfl (show 0 < 1 by decide) rfl (fun _ => List.cons_ne_nil _ _) (fun _ _ => rfl)
    fun hsize => ?_
  -- there are fewer types than bytes of types, so an index that fits no 32 bits is out of reach
  have hindices : ∀ t ∈ m.functions, t < 4294967296 := by
    intro t ht
    have := htypes t ht
    omega
  refine .items (by decide) rfl (show 1 < 2 by decide) rfl Encode.importEntry_ne_nil (fun _ _ => rfl) fun _ => ?_
  refine .items (by decide) rfl (show 2 < 3 by decide) rfl Leb128.unsigned_ne_nil
    (addFunctionTypes_functions hindices) fun _ => ?_
  refine .items (by decide) rfl (show 3 < 7 by decide) rfl (fun _ => List.cons_ne_nil _ _) (fun _ _ => rfl)
    fun _ => ?_
  refine .items (by decide) rfl (show 7 < 8 by decide) rfl Encode.exportEntry_ne_nil (fun _ _ => rfl) fun _ => ?_
  refine .code (show 8 < 12 by decide) hcounts ?_
  refine .items (by decide) rfl (show 12 < 13 by decide) rfl (fun _ => List.cons_ne_nil _ _) (fun _ _ => rfl)
    fun _ => .finish ?_
  show (if m.functions.length = m.bodies.length then none
    else some Violation.inconsistentCounts).or none = none
  rw [if_pos hbodies.symm]
  rfl

/-- **The type indices of a module are read back from its bytes** just if the sizes of its sections fit. -/
theorem definedFunctionTypes_encode (hbodies : m.bodies.length = m.functions.length)
    (htypes : ∀ t ∈ m.functions, t < m.types.length) (types : List Nat) :
    definedFunctionTypes m.encode = .ok types ↔ SizesFit m.contents ∧ types = m.functions := by
  have hlists := lists hbodies htypes (2 * m.sections.length + 9) 8
  unfold definedFunctionTypes
  rw [foldM_ofBytes rfl]
  constructor
  · intro h
    obtain ⟨out, hfold, rfl⟩ := ok_of_map h
    obtain ⟨hfits, rfl⟩ := (hlists out).1 hfold
    exact ⟨hfits, rfl⟩
  · rintro ⟨hfits, rfl⟩
    rw [(hlists _).2 ⟨hfits, rfl⟩]
    rfl

end Module

end Wasm

/-! ## Assembled units -/

open Wasm

/-- **Type indices are read off the bytes of a unit's module** as they are off any bytes. -/
theorem moduleFunctionTypes_eq_ok {unit : String} {bytes : Bytes} {types : List Nat} :
    moduleFunctionTypes unit bytes = .ok types ↔ definedFunctionTypes bytes = .ok types := by
  constructor
  · exact ok_of_mapError
  · intro h
    rw [moduleFunctionTypes, h]
    rfl

section Assembled

variable {minPages : Nat} {config : Config} {units : List SourceUnit} {state next : LinkState} {u : SourceUnit}
  {a : Assembled}

/-- **There is one type for each imported function** of a state that is reached. -/
theorem Linked.length_functionImports (h : Linked minPages units state) :
    state.functionImports.length = state.types.length := by
  rw [h.aligned.imports, h.aligned.types, Offer.length_toImports, List.length_map]

/-- **The functions of an assembled unit** have the type indices right behind those of the imported ones. -/
theorem Linked.functions_assemble (h : Linked minPages units state)
    (ha : assemble config state u = .ok (a, next)) :
    a.code.functions = List.range' state.functionImports.length u.functions.length := by
  obtain ⟨scope, _, _, _, _, hs, -, -, -, hcode, -⟩ := assemble_eq_ok ha
  have himported : scope.importedFunctions = state.functionImports.length := by
    rw [Scope.eq_of_ofUnit h.aligned hs, h.aligned.imports, Offer.length_toImports]
  rw [hcode, himported]

/-- **Type indices are read back from emitted bytes.**  Whatever units have been assembled before, by whatever
settings, the type indices that are read off the bytes of a unit that is assembled next are those from the
number of imported functions on to that of all functions, one for each function of the unit, just if the sizes
of the sections can be told in 32 bits.  The one at place `p` is the index that the name of function `p` means,
and the type there is that of function `p`. -/
theorem Linked.type_indices (h : Linked minPages units state) (ha : assemble config state u = .ok (a, next)) :
    a.summary.functionCount = state.functionImports.length + u.functions.length ∧
    (moduleFunctionTypes a.name a.bytes = .ok (List.range' state.functionImports.length u.functions.length) ↔
      SizesFit a.code.contents) ∧
    ∃ scope, Scope.ofUnit state u = .ok scope ∧ ∀ (p : Nat) (f : Function), u.functions[p]? = some f →
      scope.function? f.name = some (state.functionImports.length + p) ∧
      a.code.types[state.functionImports.length + p]? = some f.type := by
  obtain ⟨scope, _, _, _, _, hs, -, -, -, hcode, -⟩ := assemble_eq_ok ha
  have hfunctions := h.functions_assemble ha
  refine ⟨?_, ?_, scope, hs, fun p f hf => ⟨?_, ?_⟩⟩
  · have himported : a.code.importedFunctions.length = state.functionImports.length := by
      rw [Module.importedFunctions, hcode, h.aligned.types_imports, h.aligned.imports, Offer.length_toImports,
        List.length_range']
    rw [h.summary_assemble ha]
    show (a.code.importedFunctions ++ a.code.functions).length = _
    rw [List.length_append, himported, hfunctions, List.length_range']
  · have htypes : ∀ t ∈ a.code.functions, t < a.code.types.length := fun t ht =>
      (isModuleOf_assemble h.aligned hs ha).functionTypes_lt t (List.mem_append_right _ ht)
    have hread := Module.definedFunctionTypes_encode (length_bodies_of_assemble ha) htypes a.code.functions
    rw [moduleFunctionTypes_eq_ok, ← hfunctions]
    exact hread.trans (and_iff_left rfl)
  · rw [h.aligned.imports, Offer.length_toImports]
    exact Scope.function?_own h.aligned hs hf
  · rw [h.length_functionImports, hcode]
    exact state.types_own hf

end Assembled

/-- **The type index of the tally** is two, as its function index is. -/
theorem Tally.type_indices_client :
    ∃ a next, assemble { traced := true } ((LinkState.base 16).extend counter) client = .ok (a, next) ∧
      SizesFit a.code.contents ∧ a.summary.functionCount = 3 ∧ moduleFunctionTypes "client" a.bytes = .ok [2] := by
  obtain ⟨a, next, ha, hname, hfits⟩ : ∃ a next,
      assemble { traced := true } ((LinkState.base 16).extend counter) client = .ok (a, next) ∧
      a.name = "client" ∧ SizesFit a.code.contents := ⟨_, _, rfl, rfl, by decide +kernel⟩
  obtain ⟨hcount, hread, -⟩ := linked_counter.type_indices ha
  exact ⟨a, next, ha, hfits, hcount, hname ▸ hread.2 hfits⟩

end WasmLowering
