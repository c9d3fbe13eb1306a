/-
# What names stand for

A unit names functions and globals, and each name stands for what was declared
last under it.  The scope of a unit over the units before it holds the names of
a sort in one list, by index:

| index      | functions                 | globals                    |
|------------|---------------------------|----------------------------|
| `0`        | the hook of the loader    | the address of the segment |
| behind it  | those of the units before | those of the units before  |
| at the end | the unit's own            | the unit's own             |

So a name is looked up from the end of this list (`Linked.index_eq`).  Within
one unit all names differ, so the last unit that declares a name tells what it
stands for (`lastIdx?_recent`).
-/

import WasmLowering.Proofs.IndexStability

namespace WasmLowering

namespace SymbolSort

/-- The names that a unit declares, of a sort and in order. -/
def names : SymbolSort → SourceUnit → List String
  | .function => fun u => u.functions.map Function.name
  | .global => fun u => u.globals.map Global.name

/-- The name under which the loader supplies the first item of a sort. -/
def supplied : SymbolSort → String
  | .function => Loader.traceHook
  | .global => Loader.dataStart

/-- The first index of a sort behind the loader's item and those of some units. -/
def first (sort : SymbolSort) (units : List SourceUnit) : Nat := 1 + (units.flatMap sort.names).length

end SymbolSort

/-- The names that a unit takes, of functions and globals together. -/
def SourceUnit.symbols (u : SourceUnit) : List String := (u.decls.filter Decl.isSymbol).map Decl.name

/-- The index that a name of a sort stands for. -/
def Scope.index (s : Scope) : SymbolSort → String → Except Fault Nat
  | .function => s.function
  | .global => s.global

/-! ## The last one in lists of lists -/

/-- **The last one of some images** is that of what they are images of. -/
theorem lastIdx?_map {α β : Type} (p : β → Bool) (f : α → β) (as : List α) :
    lastIdx? p (as.map f) = lastIdx? (fun a => p (f a)) as := by
  induction as with
  | nil => rfl
  | cons a as ih => rw [List.map_cons, lastIdx?, lastIdx?, ih]

section Recent

variable {n supplied : String} {names : SourceUnit → List String}

/-- **A name that no unit declares** is not among the names of the units. -/
theorem lastIdx?_undeclared {units : List SourceUnit} (h : ∀ w ∈ units, n ∉ names w) :
    lastIdx? (· == n) (units.flatMap names) = none := by
  refine lastIdx?_eq_none fun name hname => ?_
  obtain ⟨w, hw, hname⟩ := List.mem_flatMap.1 hname
  rw [beq_eq_false_iff_ne]
  rintro rfl
  exact h w hw hname

/-- **The last unit that declares a name** has what the name stands for. -/
theorem lastIdx?_recent {before after : List SourceUnit} {v : SourceUnit} {p : Nat} (hv : (names v).Nodup)
    (hp : (names v)[p]? = some n) (hafter : ∀ w ∈ after, n ∉ names w) :
    lastIdx? (· == n) (supplied :: (before ++ v :: after).flatMap names) =
      some (1 + (before.flatMap names).length + p) := by
  have hown : lastIdx? (· == n) (names v) = some p := lastIdx?_of_nodup id (by rwa [List.map_id]) hp
  have hrecent : lastIdx? (· == n) ((v :: after).flatMap names) = some p := by
    rw [List.flatMap_cons, lastIdx?_append, lastIdx?_undeclared hafter, hown]
    rfl
  rw [List.flatMap_append, ← List.cons_append, lastIdx?_append, hrecent, List.length_cons,
    Nat.add_comm _ 1]
  rfl

/-- **A name that no unit declares** stands for what the loader supplies under it, if for anything. -/
theorem lastIdx?_supplied {units : List SourceUnit} (h : ∀ w ∈ units, n ∉ names w) :
    lastIdx? (· == n) (supplied :: units.flatMap names) = if n = supplied then some 0 else none := by
  rw [lastIdx?, lastIdx?_undeclared h]
  by_cases hn : n = supplied
  · simp [hn]
  · simp [hn, Ne.symm hn]

end Recent

/-- **An item that a unit has** stands behind the first one and all items of the units before. -/
theorem getElem?_flatMap_split {β : Type} {items : SourceUnit → List β} (before after : List SourceUnit)
    {v : SourceUnit} {p : Nat} {b : β} (hp : (items v)[p]? = some b) (first : β) :
    (first :: (before ++ v :: after).flatMap items)[1 + (before.flatMap items).length + p]? = some b := by
  have hlt : p < (items v).length := (List.getElem?_eq_some_iff.1 hp).1
  rw [Nat.add_assoc, Nat.add_comm 1, List.getElem?_cons_succ, List.flatMap_append, List.flatMap_cons,
    List.getElem?_append_right (Nat.le_add_right ..), Nat.add_sub_cancel_left, List.getElem?_append_left hlt, hp]

/-! ## Scopes over linked units -/

/-- **The names of a sort differ** if all symbols of the unit do. -/
theorem SymbolSort.nodup_names {u : SourceUnit} (sort : SymbolSort) (h : u.symbols.Nodup) :
    (sort.names u).Nodup := by
  cases sort with
  | function => exact h.sublist (SourceUnit.sublist_functions u.decls)
  | global => exact h.sublist (SourceUnit.sublist_globals u.decls)

section Linked

variable {minPages : Nat} {units : List SourceUnit} {state : LinkState} {u : SourceUnit} {scope : Scope}

/-- **A state that is reached** is the one after the units that led to it. -/
theorem Linked.eq_after (h : Linked minPages units state) : state = .after minPages units := by
  induction h with
  | base => rfl
  | unit _ ha ih =>
    obtain rfl := next_of_assemble ha
    rw [ih, LinkState.after, LinkState.after, List.foldl_append]
    rfl

/-- **A unit with a scope** declares each symbol once. -/
theorem Linked.nodup_of_ofUnit (h : Linked minPages units state) (hs : Scope.ofUnit state u = .ok scope) :
    u.symbols.Nodup := by
  rw [Scope.ofUnit_eq h.aligned] at hs
  exact (Scope.addDecls_eq_ok hs).2.1

/-- **Every unit that was linked** declares each symbol once. -/
theorem Linked.nodup_symbols (h : Linked minPages units state) : ∀ v ∈ units, v.symbols.Nodup := by
  induction h with
  | base => exact List.forall_mem_nil _
  | unit hbefore ha ih =>
    obtain ⟨scope, _, _, _, _, hs, -, -, -, -, -⟩ := assemble_eq_ok ha
    exact List.forall_mem_append.2 ⟨ih, List.forall_mem_singleton.2 (hbefore.nodup_of_ofUnit hs)⟩

/-- **The imported globals of a state that is reached** are the address and the globals of the units. -/
theorem Linked.globalImports_eq (h : Linked minPages units state) :
    state.globalImports =
      ⟨Loader.owner, Loader.dataStart, .global .i32, true⟩ :: units.flatMap SourceUnit.globalImports := by
  rw [h.eq_after, LinkState.after, LinkState.globalImports_foldl]
  rfl

/-- **The names of imported globals** are those of the imports. -/
theorem LinkState.names_globalImports (s : LinkState) :
    s.globals.map Prod.fst = s.globalImports.map Import.name := by
  rw [LinkState.globals, LinkState.globalImports, List.map_filterMap, ← List.filterMap_eq_map,
    List.filterMap_filter]
  refine congrArg (List.filterMap · _) (funext fun i => ?_)
  cases hi : i.entity <;> simp [Import.global?, Entity.kind?, hi]

/-- **The functions of a scope** are those that the units offer, its own unit last. -/
theorem Linked.scope_functions (h : Linked minPages units state) (hs : Scope.ofUnit state u = .ok scope) :
    scope.functions = (offers (units ++ [u])).map Offer.callable := by
  have hown : u.functions.map Function.callable = u.offers.map Offer.callable := by
    simp [SourceUnit.offers, Offer.callable, Function.callable, Function.type]
  rw [Scope.eq_of_ofUnit h.aligned hs]
  simp [offers, hown]

/-- **The functions of a scope** are named by the hook and the functions of the units, in order. -/
theorem Linked.names_functions (h : Linked minPages units state) (hs : Scope.ofUnit state u = .ok scope) :
    scope.functions.map Callable.name =
      Loader.traceHook :: (units ++ [u]).flatMap SymbolSort.function.names := by
  rw [h.scope_functions hs]
  simp [offers, Offer.hook, Offer.callable, SourceUnit.offers, SymbolSort.names, List.map_flatMap,
    Function.comp_def]

/-- **The globals of a scope** are named by the address and the globals of the units, in order. -/
theorem Linked.names_globals (h : Linked minPages units state) (hs : Scope.ofUnit state u = .ok scope) :
    scope.globals = Loader.dataStart :: (units ++ [u]).flatMap SymbolSort.global.names := by
  rw [Scope.eq_of_ofUnit h.aligned hs, LinkState.names_globalImports, h.globalImports_eq]
  simp [SourceUnit.globalImports, SymbolSort.names, List.map_flatMap, Function.comp_def]

/-- **A name is looked up from the end** of all names of its sort. -/
theorem Linked.index_eq (h : Linked minPages units state) (hs : Scope.ofUnit state u = .ok scope)
    (sort : SymbolSort) (n : String) :
    scope.index sort n =
      (lastIdx? (· == n) (sort.supplied :: (units ++ [u]).flatMap sort.names)).elim
        (.error (.unbound sort n)) .ok := by
  cases sort with
  | function =>
    show (lastIdx? (fun c => c.name == n) scope.functions).elim _ _ = _
    rw [← lastIdx?_map (· == n) Callable.name, h.names_functions hs]
    rfl
  | global =>
    show (lastIdx? (· == n) scope.globals).elim _ _ = _
    rw [h.names_globals hs]
    rfl

/-- **A name that a unit declares and no later one** stands for what that unit declares. -/
theorem Linked.index_recent (h : Linked minPages units state) (hs : Scope.ofUnit state u = .ok scope)
    {sort : SymbolSort} {n : String} {before after : List SourceUnit} {v : SourceUnit} {p : Nat}
    (hunits : units ++ [u] = before ++ v :: after) (hp : (sort.names v)[p]? = some n)
    (hafter : ∀ w ∈ after, n ∉ sort.names w) : scope.index sort n = .ok (sort.first before + p) := by
  have hall : ∀ w ∈ units ++ [u], w.symbols.Nodup :=
    List.forall_mem_append.2 ⟨h.nodup_symbols, List.forall_mem_singleton.2 (h.nodup_of_ofUnit hs)⟩
  have hv : v.symbols.Nodup := hall v (hunits ▸ List.mem_append_right _ List.mem_cons_self)
  rw [h.index_eq hs, hunits, lastIdx?_recent (sort.nodup_names hv) hp hafter]
  rfl

/-- **A function that a unit has** is offered behind the hook and all functions of the units before. -/
theorem getElem?_offers {before after : List SourceUnit} {v : SourceUnit} {p : Nat} {f : Function}
    (hf : v.functions[p]? = some f) :
    (offers (before ++ v :: after))[SymbolSort.function.first before + p]? =
      some ⟨v.name, f.name, f.type, f.isPublic⟩ := by
  have hoffer : v.offers[p]? = some ⟨v.name, f.name, f.type, f.isPublic⟩ := by
    simp [SourceUnit.offers, hf]
  have hlength : (before.flatMap SourceUnit.offers).length =
      (before.flatMap SymbolSort.function.names).length := by
    simp [List.length_flatMap, SourceUnit.offers, SymbolSort.names]
  have hget := getElem?_flatMap_split before after hoffer .hook
  rw [hlength] at hget
  exact hget

/-- **A global that a unit has** is imported behind the address and all globals of the units before. -/
theorem Linked.getElem?_globalImports (h : Linked minPages units state) {before after : List SourceUnit}
    {v : SourceUnit} (hunits : units = before ++ v :: after) {p : Nat} {g : Global}
    (hg : v.globals[p]? = some g) :
    state.globalImports[SymbolSort.global.first before + p]? =
      some ⟨v.name, g.name, .global g.width.kind, g.isPublic⟩ := by
  have himport : v.globalImports[p]? = some ⟨v.name, g.name, .global g.width.kind, g.isPublic⟩ := by
    simp [SourceUnit.globalImports, hg]
  have hlength : (before.flatMap SourceUnit.globalImports).length =
      (before.flatMap SymbolSort.global.names).length := by
    simp [List.length_flatMap, SourceUnit.globalImports, SymbolSort.names]
  have hget := getElem?_flatMap_split before after himport
    ⟨Loader.owner, Loader.dataStart, .global .i32, true⟩
  rw [hlength, ← hunits, ← h.globalImports_eq] at hget
  exact hget

/-- **The call of a function leaves a value** just if its declaration has a result. -/
theorem Linked.hasResult_iff (h : Linked minPages units state) (hs : Scope.ofUnit state u = .ok scope)
    {before after : List SourceUnit} {v : SourceUnit} (hunits : units ++ [u] = before ++ v :: after)
    {p : Nat} {f : Function} (hf : v.functions[p]? = some f) :
    scope.hasResult (SymbolSort.function.first before + p) = true ↔ f.results ≠ [] := by
  rw [Scope.hasResult, h.scope_functions hs, hunits, List.getElem?_map, getElem?_offers hf]
  simp [Offer.callable, Function.type]

/-- **The most recent declaration is what a name stands for.**  Over every state that units lead to and for
every unit with a scope there, functions and globals are looked up apart.  A name stands for the unit's own
declaration, or else for that of the last unit before it that declares the name, or else for what the loader
supplies under it as its first item, and is unbound otherwise.  The indices are those under which the
declarations are imported, and behind them those of the unit's own; the call of a function leaves a value
just if its declaration has a result. -/
theorem Linked.resolution (h : Linked minPages units state) (hs : Scope.ofUnit state u = .ok scope) :
    (∀ (sort : SymbolSort) (n : String),
      (∀ p, (sort.names u)[p]? = some n → scope.index sort n = .ok (sort.first units + p)) ∧
      (∀ before v after p, units = before ++ v :: after → (sort.names v)[p]? = some n →
        (∀ w ∈ after, n ∉ sort.names w) → n ∉ sort.names u →
        scope.index sort n = .ok (sort.first before + p)) ∧
      ((∀ w ∈ units, n ∉ sort.names w) → n ∉ sort.names u →
        (n = sort.supplied → scope.index sort n = .ok 0) ∧
        (n ≠ sort.supplied → scope.index sort n = .error (.unbound sort n) ∧
          (Fault.unbound sort n).diagnostic.kind = .unboundSymbol))) ∧
    (∀ before v after, units = before ++ v :: after →
      (∀ (p : Nat) (f : Function), v.functions[p]? = some f →
        ∃ i, i = SymbolSort.function.first before + p ∧
          state.functionImports[i]? = some ⟨v.name, f.name, .function i, f.isPublic⟩ ∧
          (scope.hasResult i = true ↔ f.results ≠ [])) ∧
      ∀ (p : Nat) (g : Global), v.globals[p]? = some g →
        state.globalImports[SymbolSort.global.first before + p]? =
          some ⟨v.name, g.name, .global g.width.kind, g.isPublic⟩) ∧
    SymbolSort.function.first units = state.functionImports.length ∧
    SymbolSort.global.first units = state.globalImports.length ∧
    (∀ (p : Nat) (f : Function), u.functions[p]? = some f →
      (scope.hasResult (SymbolSort.function.first units + p) = true ↔ f.results ≠ [])) ∧
    scope.hasResult 0 = false := by
  have hsplit {before after : List SourceUnit} {v : SourceUnit} (hunits : units = before ++ v :: after) :
      units ++ [u] = before ++ v :: (after ++ [u]) := by
    rw [hunits, List.append_assoc, List.cons_append]
  refine ⟨fun sort n => ⟨fun p hp => ?_, ?_, ?_⟩, ?_, ?_, ?_, fun p f hf => h.hasResult_iff hs rfl hf, ?_⟩
  · exact h.index_recent hs rfl hp (List.forall_mem_nil _)
  · intro before v after p hunits hp hafter hu
    exact h.index_recent hs (hsplit hunits) hp (List.forall_mem_append.2 ⟨hafter, List.forall_mem_singleton.2 hu⟩)
  · intro hunits hu
    have hall : ∀ w ∈ units ++ [u], n ∉ sort.names w :=
      List.forall_mem_append.2 ⟨hunits, List.forall_mem_singleton.2 hu⟩
    rw [h.index_eq hs, lastIdx?_supplied hall]
    refine ⟨fun hn => ?_, fun hn => ⟨?_, rfl⟩⟩
    · rw [if_pos hn]
      rfl
    · rw [if_neg hn]
      rfl
  · intro before v after hunits
    refine ⟨fun p f hf => ⟨_, rfl, ?_, h.hasResult_iff hs (hsplit hunits) hf⟩,
      fun p g hg => h.getElem?_globalImports hunits hg⟩
    rw [h.aligned.imports, Offer.getElem?_toImports, hunits, getElem?_offers hf]
    rfl
  · rw [h.aligned.imports, Offer.length_toImports]
    simp [SymbolSort.first, offers, SourceUnit.offers, SymbolSort.names, List.length_flatMap, Nat.add_comm]
  · rw [h.globalImports_eq]
    simp [SymbolSort.first, SourceUnit.globalImports, SymbolSort.names, List.length_flatMap, Nat.add_comm]
  · rw [Scope.hasResult, h.scope_functions hs]
    rfl

end Linked

namespace Tally

/-- A unit that declares the names of the counter the other way round: the limit is a function, and the next
one a global. -/
def inverter : SourceUnit where
  name := "inverter"
  decls := [
    .function
      { name := "limit", isPublic := true, args := [], locals := [], results := []
        body := .literal .u32 "0" },
    .global { name := "next", isPublic := false, width := .u64, init := .literal .u64 "7" }]

/-- **Functions and globals are looked up apart.**  For the inverter the counter's function keeps its name
and so does the counter's limit, beside the inverter's own; the hook has its name too. -/
theorem resolution_inverter :
    ∃ scope, Linked 16 [counter] ((LinkState.base 16).extend counter) ∧
      Scope.ofUnit ((LinkState.base 16).extend counter) inverter = .ok scope ∧
      scope.function "next" = .ok 1 ∧ scope.function "limit" = .ok 2 ∧
      scope.global "limit" = .ok 1 ∧ scope.global "next" = .ok 2 ∧
      scope.function "debug" = .ok 0 ∧ scope.function "data_start" = .error (.unbound .function "data_start") ∧
      scope.hasResult 1 = true ∧ scope.hasResult 2 = false := by
  obtain ⟨scope, hs⟩ : ∃ scope, Scope.ofUnit ((LinkState.base 16).extend counter) inverter = .ok scope :=
    ⟨_, rfl⟩
  obtain ⟨hindex, hearlier, -, -, hown, -⟩ := linked_counter.resolution hs
  have hunits : [counter] = [] ++ counter :: [] := rfl
  obtain ⟨hnext, -⟩ := hearlier _ _ _ hunits
  obtain ⟨_, rfl, -, hresult⟩ := hnext 0 _ rfl
  have hvoid := hown 0 _ rfl
  refine ⟨scope, linked_counter, hs, ?_, ?_, ?_, ?_, ?_, ?_, ?_, ?_⟩
  · exact (hindex .function "next").2.1 _ _ _ 0 hunits rfl (List.forall_mem_nil _) (by decide)
  · exact (hindex .function "limit").1 0 rfl
  · exact (hindex .global "limit").2.1 _ _ _ 0 hunits rfl (List.forall_mem_nil _) (by decide)
  · exact (hindex .global "next").1 0 rfl
  · exact ((hindex .function "debug").2.2 (by decide) (by decide)).1 rfl
  · exact (((hindex .function "data_start").2.2 (by decide) (by decide)).2 (by decide)).1
  · exact hresult.2 (List.cons_ne_nil _ _)
  · rw [← Bool.not_eq_true]
    exact fun hvalue => hvoid.1 hvalue rfl

end Tally

end WasmLowering
