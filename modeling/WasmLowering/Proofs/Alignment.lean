/-
# Alignment of link states

A link state that units leave keeps one type for each imported function, under
the function's own index.  Said with the functions that the linked units offer,
in order and with the hook of the loader first:

| what the state holds      | told by the offers                       |
|---------------------------|------------------------------------------|
| type `i`                  | the type of offer `i`                    |
| function import `i`       | offer `i`, with type index `i`           |

Each unit appends its own functions to both columns (`Aligned.extend`), so every
state that is reached is aligned (`Linked.aligned`).  The scope over an aligned
state never blames the compiler, and puts a unit's own functions right behind
the imported ones.
-/

import WasmLowering.Proofs.Blame
import WasmLowering.Proofs.Kinding
import WasmLowering.Proofs.Lowering

namespace WasmLowering

open Wasm

/-- Whether what an import brings in is a function. -/
def Entity.isFunction : Entity → Bool
  | function _ => true
  | _ => false

/-- The name and kind of what an import brings in, if it is a global. -/
def Import.global? (i : Import) : Option (String × Kind) :=
  match i.entity with
  | .global k => some (i.name, k)
  | _ => none

namespace LinkState

/-- The link state after a unit, told by the unit alone. -/
def extend (state : LinkState) (u : SourceUnit) : LinkState where
  types := state.types ++ u.functions.map Function.type
  imports := state.imports ++ Assembly.declImports u.name state.types.length u.decls

/-- The imports that are functions, in order. -/
def functionImports (s : LinkState) : List Import := s.imports.filter (·.entity.isFunction)

/-- The names and kinds of the imported globals, in order. -/
def globals (s : LinkState) : List (String × Kind) := s.imports.filterMap Import.global?

end LinkState

/-- A function that later units can import. -/
structure Offer where
  owner : String
  name : String
  type : FuncType
  exported : Bool
  deriving DecidableEq, Repr

namespace Offer

/-- The import of an offered function, by the index of its type. -/
def toImport (o : Offer) (type : Nat) : Import := ⟨o.owner, o.name, .function type, o.exported⟩

/-- The offered function as its callers see it. -/
def callable (o : Offer) : Callable := ⟨o.name, !o.type.results.isEmpty⟩

/-- The imports of offered functions, with types from an index on. -/
def toImports (first : Nat) (os : List Offer) : List Import :=
  (os.zipIdx first).map fun o => o.1.toImport o.2

@[simp] theorem length_toImports (first : Nat) (os : List Offer) :
    (toImports first os).length = os.length := by
  simp [toImports]

/-- **Imports of more offers go on where the first ones end.** -/
theorem toImports_append (first : Nat) (os os' : List Offer) :
    toImports first (os ++ os') = toImports first os ++ toImports (first + os.length) os' := by
  simp [toImports, List.zipIdx_append]

/-- **The import of each offer has the offer's own index as its type.** -/
theorem getElem?_toImports (os : List Offer) (i : Nat) :
    (toImports 0 os)[i]? = (os[i]?).map (·.toImport i) := by
  simp [toImports, Function.comp_def]

/-- The function of the loader that is called with trace records. -/
def hook : Offer := ⟨Loader.owner, Loader.traceHook, ⟨[], []⟩, true⟩

end Offer

/-- The functions that a unit offers. -/
def SourceUnit.offers (u : SourceUnit) : List Offer :=
  u.functions.map fun f => ⟨u.name, f.name, f.type, f.isPublic⟩

/-- The functions that are offered after units: the hook of the loader, then those of the units. -/
def offers (units : List SourceUnit) : List Offer := .hook :: units.flatMap SourceUnit.offers

/-- What the imports and types of a link state are, told by offered functions. -/
structure LinkState.Aligned (os : List Offer) (s : LinkState) : Prop where
  types : s.types = os.map Offer.type
  imports : s.functionImports = Offer.toImports 0 os

/-- **The functions among the imports of declarations are the offers of the functions declared.** -/
theorem Assembly.filter_declImports (owner : String) : (first : Nat) → (ds : List Decl) →
    (declImports owner first ds).filter (·.entity.isFunction) =
      Offer.toImports first
        ((ds.filterMap Decl.function?).map fun f => ⟨owner, f.name, f.type, f.isPublic⟩)
  | _, [] => rfl
  | first, .function _ :: ds => congrArg (_ :: ·) (filter_declImports owner (first + 1) ds)
  | first, .global _ :: ds => filter_declImports owner first ds
  | first, .type _ :: ds => filter_declImports owner first ds

namespace LinkState.Aligned

/-- **The state that linking starts from is aligned.** -/
theorem base (minPages : Nat) : (LinkState.base minPages).Aligned (offers []) := ⟨rfl, rfl⟩

/-- **A unit keeps the state aligned.**  Its functions get the next types and the next imports. -/
theorem extend {os : List Offer} {s : LinkState} (h : s.Aligned os) (u : SourceUnit) :
    (s.extend u).Aligned (os ++ u.offers) where
  types := by
    show s.types ++ u.functions.map Function.type = _
    rw [h.types, List.map_append, SourceUnit.offers, List.map_map]
    rfl
  imports := by
    have hlength : s.types.length = os.length := by rw [h.types, List.length_map]
    calc (s.extend u).functionImports
        = s.functionImports ++ (Assembly.declImports u.name s.types.length u.decls).filter
            (·.entity.isFunction) := List.filter_append ..
      _ = Offer.toImports 0 os ++ Offer.toImports os.length u.offers := by
        rw [h.imports, Assembly.filter_declImports, hlength]
        rfl
      _ = Offer.toImports 0 (os ++ u.offers) := by
        rw [Offer.toImports_append, Nat.zero_add]

end LinkState.Aligned

/-! What a scope takes from imports and from declarations. -/

/-- A declared function as its callers see it. -/
def Function.callable (f : Function) : Callable := ⟨f.name, !f.results.isEmpty⟩

namespace Scope

/-- The scope of what is imported: offered functions, and globals. -/
def imported (os : List Offer) (globals : List (String × Kind)) : Scope :=
  ⟨os.map Offer.callable, globals.map Prod.fst, os.length, globals.length⟩

/-- **Aligned imports are all added.**  The functions go on with the offers, each under the index that its
type has, and the globals with their names. -/
theorem addImports_eq (unit : String) (types : List FuncType) :
    (is : List Import) → (s : Scope) → (os : List Offer) →
      is.filter (·.entity.isFunction) = Offer.toImports s.functions.length os →
      (∀ (i : Nat) (o : Offer), os[i]? = some o → types[s.functions.length + i]? = some o.type) →
      addImports unit types s is = .ok
        { s with
          functions := s.functions ++ os.map Offer.callable
          globals := s.globals ++ (is.filterMap Import.global?).map Prod.fst }
  | [], s, os, hf, _ => by
    obtain rfl : os = [] := List.length_eq_zero_iff.1 (by rw [← Offer.length_toImports, ← hf]; rfl)
    simp [addImports]
  | ⟨owner, name, .function type, exported⟩ :: is, s, os, hf, ht => by
    -- The first offer is this import, so its type is the next function index and is known.
    cases os with
    | nil => cases hf
    | cons o os =>
      obtain ⟨⟨⟩, hrest⟩ := List.cons.inj hf
      have htype : types[s.functions.length]? = some o.type := ht 0 o rfl
      have hgrown : (s.functions ++ [o.callable]).length = s.functions.length + 1 := List.length_append
      rw [addImports]
      simp only [ne_eq, not_true_eq_false, if_false, htype]
      refine (addImports_eq unit types is _ os ?_ fun i o' hi => ?_).trans ?_
      · exact hrest.trans (by rw [← hgrown]; rfl)
      · have := ht (i + 1) o' hi
        rwa [← Nat.add_assoc, Nat.add_right_comm, ← hgrown] at this
      · simp [addFunction, Offer.callable, List.filterMap_cons, Import.global?]
  | ⟨owner, name, .global k, exported⟩ :: is, s, os, hf, ht => by
    rw [addImports]
    refine (addImports_eq unit types is (s.addGlobal name) os hf ht).trans ?_
    simp [addGlobal, Import.global?]
  | ⟨owner, name, .memory minPages, exported⟩ :: is, s, os, hf, ht => by
    rw [addImports]
    exact addImports_eq unit types is s os hf ht

/-- **Declarations that are all added** have different names, take no reserved one, and follow what was
there. -/
theorem addDecls_eq_ok {unit : String} :
    {ds : List Decl} → {seen : List String} → {s s' : Scope} → addDecls unit seen s ds = .ok s' →
      s' = { s with
        functions := s.functions ++ (ds.filterMap Decl.function?).map Function.callable
        globals := s.globals ++ (ds.filterMap Decl.global?).map Global.name } ∧
      ((ds.filter Decl.isSymbol).map Decl.name).Nodup ∧
      (∀ d ∈ ds, d.isSymbol = true → d.name ∉ seen) ∧
      ∀ d ∈ ds, d.isPublic = true → d.name ≠ Loader.dataSize
  | [], _, s, _, h => by
    cases h
    simp
  | d :: ds, seen, s, s', h => by
    rw [addDecls] at h
    split at h
    · cases h
    rename_i hreserved
    split at h
    · cases h
    rename_i hseen
    obtain ⟨rfl, hnodup, hfresh, hfree⟩ := addDecls_eq_ok h
    simp only [Bool.and_eq_true, beq_iff_eq, not_and, List.contains_iff_mem] at hreserved hseen
    refine ⟨?_, ?_, ?_, List.forall_mem_cons.2 ⟨hreserved, hfree⟩⟩
    · cases d <;> simp [addDecl, addFunction, addGlobal, Function.callable, List.filterMap_cons,
        Decl.function?, Decl.global?]
    · by_cases hd : d.isSymbol = true
      · rw [List.filter_cons_of_pos hd, List.map_cons, List.nodup_cons]
        refine ⟨?_, hnodup⟩
        intro hmem
        obtain ⟨e, he, hname⟩ := List.mem_map.1 hmem
        obtain ⟨he, hsym⟩ := List.mem_filter.1 he
        exact hfresh e he hsym (by rw [if_pos hd, hname]; exact List.mem_cons_self)
      · rw [List.filter_cons_of_neg hd]
        exact hnodup
    · refine List.forall_mem_cons.2 ⟨hseen, fun e he hsym hmem => hfresh e he hsym ?_⟩
      split
      · exact List.mem_cons_of_mem _ hmem
      · exact hmem

/-- **The scope of a unit over an aligned state** is what the unit declares over all that is imported:
neither check of the imports fails. -/
theorem ofUnit_eq {os : List Offer} {state : LinkState} (h : state.Aligned os) (u : SourceUnit) :
    ofUnit state u = addDecls u.name [] (imported os state.globals) u.decls := by
  have himports := addImports_eq u.name state.types state.imports empty os h.imports fun i o hi => by
    rw [h.types, List.getElem?_map]
    show (os[0 + i]?).map Offer.type = _
    rw [Nat.zero_add, hi]
    rfl
  have hcount : state.types.length = (os.map Offer.callable).length := by
    rw [h.types, List.length_map, List.length_map]
  unfold ofUnit
  rw [himports]
  show (if state.types.length ≠ (os.map Offer.callable).length then _ else _) = _
  rw [if_neg (not_not_intro hcount)]
  simp [sealImports, imported, LinkState.globals, empty]

/-- **What a scope counts:** as many imported functions as the state has types, and the unit's own behind them. -/
theorem counts_of_ofUnit {state : LinkState} {u : SourceUnit} {scope : Scope} (hs : ofUnit state u = .ok scope) :
    scope.importedFunctions = state.types.length ∧
    (state.types ++ u.functions.map Function.type).length = scope.functions.length := by
  obtain ⟨imported, -, hs⟩ := ok_of_bind hs
  split at hs
  · cases hs
  · rename_i hcount
    have hcount : state.types.length = imported.functions.length := Decidable.of_not_not hcount
    obtain ⟨rfl, -⟩ := addDecls_eq_ok hs
    refine ⟨hcount.symm, ?_⟩
    rw [List.length_append, List.length_map, hcount]
    show _ = (imported.functions ++ u.functions.map Function.callable).length
    rw [List.length_append, List.length_map]

end Scope

/-- **A unit with a scope has a type for each function,** so that the check of its types never fails. -/
theorem Assembly.checkTypes_of_ofUnit {state : LinkState} {u : SourceUnit} {scope : Scope}
    (hs : Scope.ofUnit state u = .ok scope) :
    checkTypes u.name (state.types ++ u.functions.map Function.type) scope = .ok () := by
  unfold checkTypes
  rw [if_pos (Scope.counts_of_ofUnit hs).2]

theorem Assembly.raises_checkTypes {state : LinkState} {u : SourceUnit} {scope : Scope}
    (hs : Scope.ofUnit state u = .ok scope) (P : Fault → Prop) :
    Raises P (checkTypes u.name (state.types ++ u.functions.map Function.type) scope) := by
  rw [checkTypes_of_ofUnit hs]
  exact .ok _

/-! The index of a name that is declared last under it. -/

/-- **The last one of two lists** is in the second, if it is there at all. -/
theorem lastIdx?_append {α : Type} (p : α → Bool) (bs : List α) : (as : List α) →
    lastIdx? p (as ++ bs) = ((lastIdx? p bs).map (as.length + ·)).or (lastIdx? p as)
  | [] => by
    show lastIdx? p bs = _
    cases lastIdx? p bs <;> simp [lastIdx?]
  | a :: as => by
    rw [List.cons_append, lastIdx?, lastIdx?_append p bs as]
    cases lastIdx? p bs with
    | none => rfl
    | some j =>
      show some (as.length + j + 1) = some (as.length + 1 + j)
      rw [Nat.add_right_comm]

/-- **Nothing is last of what is not there.** -/
theorem lastIdx?_eq_none {α : Type} {p : α → Bool} : {as : List α} → (∀ a ∈ as, p a = false) →
    lastIdx? p as = none
  | [], _ => rfl
  | a :: as, h => by
    obtain ⟨ha, has⟩ := List.forall_mem_cons.1 h
    rw [lastIdx?, lastIdx?_eq_none has]
    simp [ha]

/-- **With different keys, the last one with a key is the only one.** -/
theorem lastIdx?_of_nodup {α : Type} (key : α → String) :
    {as : List α} → {i : Nat} → {a : α} → (as.map key).Nodup → as[i]? = some a →
      lastIdx? (fun b => key b == key a) as = some i
  | b :: as, 0, _, hn, rfl => by
    have hrest : lastIdx? (fun c => key c == key b) as = none := by
      refine lastIdx?_eq_none fun c hc => ?_
      rw [beq_eq_false_iff_ne]
      intro heq
      exact (List.nodup_cons.1 hn).1 (heq ▸ List.mem_map_of_mem hc)
    rw [lastIdx?, hrest]
    simp
  | b :: as, i + 1, a, hn, hi => by
    rw [lastIdx?, lastIdx?_of_nodup key (List.nodup_cons.1 hn).2 hi]

/-- **The names of functions are among the names of symbols**, in order. -/
theorem SourceUnit.sublist_functions : (ds : List Decl) →
    List.Sublist ((ds.filterMap Decl.function?).map Function.name)
      ((ds.filter Decl.isSymbol).map Decl.name)
  | [] => .slnil
  | .function _ :: ds => .cons_cons _ (sublist_functions ds)
  | .global _ :: ds => .cons _ (sublist_functions ds)
  | .type _ :: ds => sublist_functions ds

/-- **A unit's own functions stand right behind the imported ones**, and each is what its name means. -/
theorem Scope.function?_own {os : List Offer} {state : LinkState} (h : state.Aligned os)
    {u : SourceUnit} {scope : Scope} (hs : ofUnit state u = .ok scope) {p : Nat} {f : Function}
    (hf : u.functions[p]? = some f) : scope.function? f.name = some (os.length + p) := by
  rw [ofUnit_eq h] at hs
  obtain ⟨rfl, hnodup, -, -⟩ := addDecls_eq_ok hs
  have hnames : ((u.functions.map Function.callable).map Callable.name).Nodup := by
    rw [List.map_map]
    exact hnodup.sublist (SourceUnit.sublist_functions u.decls)
  have hown : (u.functions.map Function.callable)[p]? = some f.callable := by
    rw [List.getElem?_map, hf]
    rfl
  show lastIdx? (fun c => c.name == f.callable.name)
    (os.map Offer.callable ++ u.functions.map Function.callable) = _
  rw [lastIdx?_append, lastIdx?_of_nodup Callable.name hnames hown, List.length_map]
  rfl

/-! Assembling, and the states it leads to. -/

/-- **What an assembled unit is made of.** -/
theorem assemble_eq_ok {config : Config} {state next : LinkState} {u : SourceUnit} {a : Assembled}
    (h : assemble config state u = .ok (a, next)) :
    ∃ scope bodies segment globals exports,
      Scope.ofUnit state u = .ok scope ∧
      Assembly.lowerFunctions scope config.traced u = .ok (bodies, segment) ∧
      Assembly.globalDefs scope u = .ok globals ∧
      Assembly.exports scope u = .ok exports ∧
      a.code =
        { types := (state.extend u).types
          imports := state.imports
          functions := List.range' scope.importedFunctions u.functions.length
          globals := globals ++ [Assembly.sizeGlobal segment]
          exports
          bodies
          data := segment.bytes } ∧
      a.name = u.name ∧
      a.summary =
        { name := u.name
          imports := state.imports
          exports := exports.map Export.name
          dataSize := segment.size
          functionCount := scope.functions.length
          globalCount := scope.globals.length + 1 } ∧
      next = state.extend u := by
  obtain ⟨scope, hs, h⟩ := ok_of_bind h
  obtain ⟨_, -, h⟩ := ok_of_bind h
  obtain ⟨⟨bodies, segment⟩, hb, h⟩ := ok_of_bind h
  obtain ⟨globals, hg, h⟩ := ok_of_bind h
  obtain ⟨exports, he, h⟩ := ok_of_bind h
  cases h
  refine ⟨scope, bodies, segment, globals, exports, hs, hb, hg, he, rfl, rfl, rfl, ?_⟩
  rw [(Scope.counts_of_ofUnit hs).1]
  rfl

/-- **The state after a unit** has the unit added to it. -/
theorem next_of_assemble {config : Config} {state next : LinkState} {u : SourceUnit} {a : Assembled}
    (h : assemble config state u = .ok (a, next)) : next = state.extend u := by
  obtain ⟨_, _, _, _, _, -, -, -, -, -, -, -, hnext⟩ := assemble_eq_ok h
  exact hnext

/-- **Assembling blames the compiler only for a scope.**  Everything that follows the scope of a unit
refuses only what the unit itself says. -/
theorem blameless_assemble {config : Config} {state : LinkState} {u : SourceUnit}
    (h : Blameless (Scope.ofUnit state u)) : Blameless (assemble config state u) := by
  refine Raises.bind_of_ok h fun scope hs => ?_
  refine .bind (Assembly.raises_checkTypes hs _) fun _ => ?_
  refine .bind ((Assembly.raises_lowerFunctions scope config.traced u).mono ?_) fun _ => ?_
  · rintro f ⟨name, hname⟩
    exact hname.kind
  refine .bind ((Assembly.raises_globalDefs scope u).mono fun _ => Fault.Located.kind) fun _ => ?_
  exact .bind ((Assembly.raises_exports scope u).mono fun _ => Fault.Located.kind) fun _ => .ok _

/-- The states that assembling units one after the other leads to, from a memory with some pages at least.
Each unit may be assembled by settings of its own. -/
inductive Linked (minPages : Nat) : List SourceUnit → LinkState → Prop
  | base : Linked minPages [] (.base minPages)
  | unit {units : List SourceUnit} {state next : LinkState} {config : Config} {u : SourceUnit}
    {a : Assembled} :
    Linked minPages units state → assemble config state u = .ok (a, next) →
    Linked minPages (units ++ [u]) next

/-- **Every state that is reached is aligned** with the functions that the units offer. -/
theorem Linked.aligned {minPages : Nat} {units : List SourceUnit} {state : LinkState}
    (h : Linked minPages units state) : state.Aligned (offers units) := by
  induction h with
  | base => exact .base minPages
  | @unit units _ _ _ u _ _ ha ih =>
    obtain rfl := next_of_assemble ha
    have hoffers : offers (units ++ [u]) = offers units ++ u.offers := by simp [offers]
    rw [hoffers]
    exact ih.extend u

/-- **A scope over a state that is reached never blames the compiler.** -/
theorem Linked.blameless_ofUnit {minPages : Nat} {units : List SourceUnit} {state : LinkState}
    (h : Linked minPages units state) (u : SourceUnit) : Blameless (Scope.ofUnit state u) := by
  rw [Scope.ofUnit_eq h.aligned]
  exact Scope.blameless_addDecls _ _ _ _

/-- **Indices are aligned over whole links.**  In a state that units lead to there is one type for
each imported function; function import `i` is offer `i`, has type index `i`, and type `i` is the type of its
declaration, or the empty one for the hook of the loader.  So neither the scope nor the module of any next
unit fails by an error of the compiler: the unit has as many types as functions, which is what assembling it
checks.  The unit's own function `p` gets the type index that is its own function index, which is what its name
means and where its own type is. -/
theorem Linked.index_alignment {minPages : Nat} {units : List SourceUnit} {state : LinkState}
    (h : Linked minPages units state) :
    state.types.length = state.functionImports.length ∧
    (∀ (i : Nat) (imp : Import), state.functionImports[i]? = some imp →
      ∃ o : Offer, (offers units)[i]? = some o ∧
      imp.owner = o.owner ∧ imp.name = o.name ∧ imp.entity = .function i ∧
      state.types[i]? = some o.type) ∧
    (∀ u fault, Scope.ofUnit state u = .error fault → fault.diagnostic.kind ≠ .compiler) ∧
    (∀ config u fault, assemble config state u = .error fault → fault.diagnostic.kind ≠ .compiler) ∧
    (∀ u scope, Scope.ofUnit state u = .ok scope →
      scope.importedFunctions = state.functionImports.length ∧
      Assembly.checkTypes u.name (state.types ++ u.functions.map Function.type) scope = .ok ()) ∧
    ∀ config u a next, assemble config state u = .ok (a, next) →
      a.code.imports = state.imports ∧ a.code.functions.length = u.functions.length ∧
      ∃ scope, Scope.ofUnit state u = .ok scope ∧
        scope.importedFunctions = state.functionImports.length ∧
        ∀ (p : Nat) (f : Function), u.functions[p]? = some f →
          a.code.functions[p]? = some (scope.importedFunctions + p) ∧
          scope.function? f.name = some (scope.importedFunctions + p) ∧
          a.code.types[scope.importedFunctions + p]? = some f.type := by
  have hal := h.aligned
  have hcount : state.functionImports.length = (offers units).length := by
    rw [hal.imports, Offer.length_toImports]
  have htypes : state.types.length = state.functionImports.length := by
    rw [hcount, hal.types, List.length_map]
  refine ⟨htypes, ?_, ?_, ?_, ?_, ?_⟩
  · intro i imp hi
    rw [hal.imports, Offer.getElem?_toImports] at hi
    obtain ⟨o, ho, rfl⟩ := Option.map_eq_some_iff.1 hi
    refine ⟨o, ho, rfl, rfl, rfl, ?_⟩
    rw [hal.types, List.getElem?_map, ho]
    rfl
  · exact fun u => h.blameless_ofUnit u
  · exact fun config u => blameless_assemble (h.blameless_ofUnit u)
  · intro u scope hs
    exact ⟨(Scope.counts_of_ofUnit hs).1.trans htypes, Assembly.checkTypes_of_ofUnit hs⟩
  · intro config u a next ha
    obtain ⟨scope, bodies, segment, globals, exports, hs, -, -, -, hcode, -⟩ := assemble_eq_ok ha
    have himported : scope.importedFunctions = (offers units).length :=
      (Scope.counts_of_ofUnit hs).1.trans (htypes.trans hcount)
    rw [hcode]
    refine ⟨rfl, List.length_range', scope, hs, himported.trans hcount.symm, fun p f hf => ?_⟩
    have hp : p < u.functions.length := (List.getElem?_eq_some_iff.1 hf).1
    refine ⟨?_, ?_, ?_⟩
    · simp [List.getElem?_range' hp]
    · rw [himported]
      exact Scope.function?_own hal hs hf
    · show (state.types ++ u.functions.map Function.type)[scope.importedFunctions + p]? = _
      rw [hal.types, himported, List.getElem?_append_right (by rw [List.length_map]; omega),
        List.length_map, Nat.add_sub_cancel_left, List.getElem?_map, hf]
      rfl

namespace Tally

/-- A unit with what the tally needs: a function and a limit that others copy. -/
def counter : SourceUnit where
  name := "counter"
  decls := [
    .type "count",
    .function
      { name := "next", isPublic := true, args := [.u32], locals := [], results := [.u32]
        body := .binary .add .u32 (.var 0) (.literal .u32 "1") },
    .global { name := "limit", isPublic := true, width := .u32, init := .literal .u32 "3" }]

/-- A unit with the tally, over the counter. -/
def client : SourceUnit where
  name := "client"
  decls := [
    .global { name := "bound", isPublic := false, width := .u32, init := .global "limit" },
    .function function]

/-- **The state after the counter** is reached. -/
theorem linked_counter : Linked 16 [counter] ((LinkState.base 16).extend counter) := by
  obtain ⟨a, ha⟩ : ∃ a, assemble {} (.base 16) counter = .ok (a, (LinkState.base 16).extend counter) :=
    ⟨_, rfl⟩
  exact .unit .base ha

/-- **The tally is emitted with type index two**, behind the hook and the counter's function. -/
theorem index_alignment_client :
    Linked 16 [counter] ((LinkState.base 16).extend counter) ∧
    ∃ a next, assemble {} ((LinkState.base 16).extend counter) client = .ok (a, next) ∧
      a.code.functions[0]? = some 2 ∧ a.code.types[2]? = some function.type := by
  refine ⟨linked_counter, ?_⟩
  obtain ⟨a, next, ha⟩ :
      ∃ a next, assemble {} ((LinkState.base 16).extend counter) client = .ok (a, next) := ⟨_, _, rfl⟩
  obtain ⟨-, -, -, -, -, hown⟩ := linked_counter.index_alignment
  obtain ⟨-, -, scope, -, hn, hf⟩ := hown {} client a next ha
  obtain ⟨hindex, -, htype⟩ := hf 0 function rfl
  rw [hn] at hindex htype
  exact ⟨a, next, ha, hindex, htype⟩

end Tally

end WasmLowering
