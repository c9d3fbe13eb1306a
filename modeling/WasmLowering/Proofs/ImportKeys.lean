/-
# Keys of imports

A loader tells imports apart by their keys: the module that owns an import, and
its name there.  A module imports under the keys of the loader, and under those
of the units before it, one for each function and global:

| of         | owner             | names                         |
|------------|-------------------|-------------------------------|
| the loader | `runtime`         | `debug`, `mem`, `data_start`  |
| a unit     | the unit's name   | its functions and globals     |

Within one row all names differ.  Nothing keeps the names of two units apart, or
the name of a unit from that of the loader, so two rows may have one owner.  The
keys of a module differ if and only if such rows share no name
(`Linked.nodup_keys_iff`).

Modules are found by the names of units, and the first one with a name is the one
found (`position?_of_link`).
-/

import Mathlib.Data.List.Nodup
import WasmLowering.Proofs.Provision

namespace WasmLowering

open Wasm

/-- The key of an import: its owner and its name there. -/
def Import.key (i : Import) : String × String := (i.owner, i.name)

/-- The names that the loader supplies. -/
def Loader.names : List String := [traceHook, memory, dataStart]

/-- No key comes twice from the loader and some units: units of one name share no symbol, and a unit with the
name of the loader has none that the loader supplies. -/
structure Unambiguous (units : List SourceUnit) : Prop where
  apart : units.Pairwise fun u v => u.name = v.name → u.symbols.Disjoint v.symbols
  unsupplied : ∀ u ∈ units, u.name = Loader.owner → u.symbols.Disjoint Loader.names

/-- **With names of their own, units are unambiguous.** -/
theorem Unambiguous.of_names {units : List SourceUnit} (hnodup : (units.map SourceUnit.name).Nodup)
    (hloader : Loader.owner ∉ units.map SourceUnit.name) : Unambiguous units where
  apart := (List.pairwise_map.1 hnodup).imp fun hne heq => absurd heq hne
  unsupplied _ hu heq := absurd (heq ▸ List.mem_map_of_mem hu) hloader

/-! ## The keys of a state -/

/-- The keys of some names of an owner. -/
def Import.keys (owner : String) (names : List String) : List (String × String) := names.map (owner, ·)

/-- **Names that differ** have keys that differ. -/
theorem Import.nodup_keys {owner : String} {names : List String} (h : names.Nodup) : (keys owner names).Nodup :=
  h.map fun _ _ heq => (Prod.mk.inj heq).2

/-- **Keys of two owners are apart,** and those of one owner if the names are. -/
theorem Import.disjoint_keys {owner owner' : String} {names names' : List String} :
    (keys owner names).Disjoint (keys owner' names') ↔ (owner = owner' → names.Disjoint names') := by
  constructor
  · rintro h rfl n hn hn'
    exact h (List.mem_map_of_mem hn) (List.mem_map_of_mem hn')
  · intro h key hkey hkey'
    obtain ⟨n, hn, rfl⟩ := List.mem_map.1 hkey
    obtain ⟨n', hn', heq⟩ := List.mem_map.1 hkey'
    obtain ⟨rfl, rfl⟩ := Prod.mk.inj heq
    exact h rfl hn hn'

/-- **The imports that declarations bring** have the keys of the symbols among them, in order. -/
theorem Assembly.keys_declImports (owner : String) (ds : List Decl) (first : Nat) :
    (declImports owner first ds).map Import.key =
      Import.keys owner ((ds.filter Decl.isSymbol).map Decl.name) := by
  induction ds generalizing first with
  | nil => rfl
  | cons d ds ih =>
    cases d with
    | function f => exact congrArg ((owner, f.name) :: ·) (ih (first + 1))
    | global g => exact congrArg ((owner, g.name) :: ·) (ih first)
    | type n => exact ih first

/-- **Along units the keys of their symbols are added.** -/
theorem LinkState.keys_foldl (s : LinkState) (units : List SourceUnit) :
    (units.foldl extend s).imports.map Import.key =
      s.imports.map Import.key ++ units.flatMap fun u => Import.keys u.name u.symbols := by
  induction units generalizing s with
  | nil => exact (List.append_nil _).symm
  | cons u units ih =>
    rw [List.foldl_cons, ih, List.flatMap_cons, ← List.append_assoc]
    congr 1
    show (s.imports ++ Assembly.declImports u.name s.types.length u.decls).map Import.key = _
    rw [List.map_append, Assembly.keys_declImports]
    rfl

section Reached

variable {minPages : Nat} {units : List SourceUnit} {state : LinkState}

/-- **The keys of a state that is reached** are those of the loader and those of its units, in order. -/
theorem Linked.keys_eq (h : Linked minPages units state) :
    state.imports.map Import.key =
      Import.keys Loader.owner Loader.names ++ units.flatMap fun u => Import.keys u.name u.symbols := by
  rw [h.eq_after, LinkState.after, LinkState.keys_foldl]
  rfl

/-- **The keys of a state that is reached differ** if and only if its units are unambiguous. -/
theorem Linked.nodup_keys_iff (h : Linked minPages units state) :
    (state.imports.map Import.key).Nodup ↔ Unambiguous units := by
  have hloader : (Import.keys Loader.owner Loader.names).Nodup := Import.nodup_keys (by decide)
  have hunits : ∀ u ∈ units, (Import.keys u.name u.symbols).Nodup :=
    fun u hu => Import.nodup_keys (h.nodup_symbols u hu)
  rw [h.keys_eq, List.nodup_append', List.nodup_flatMap]
  constructor
  · rintro ⟨-, ⟨-, hapart⟩, hsupplied⟩
    refine ⟨hapart.imp Import.disjoint_keys.1, fun u hu => Import.disjoint_keys.1 fun key hown hkey => ?_⟩
    exact hsupplied hkey (List.mem_flatMap.2 ⟨u, hu, hown⟩)
  · rintro ⟨hapart, hsupplied⟩
    refine ⟨hloader, ⟨hunits, hapart.imp Import.disjoint_keys.2⟩, fun key hkey hany => ?_⟩
    obtain ⟨u, hu, hown⟩ := List.mem_flatMap.1 hany
    exact Import.disjoint_keys.2 (hsupplied u hu) hown hkey

end Reached

/-! ## Modules by name -/

section Linked

variable {config : Config} {units : List SourceUnit} {p : Program}

/-- **Modules have the names of their units.** -/
theorem names_of_link (h : link config units = .ok p) :
    p.modules.map Assembled.name = units.map SourceUnit.name := by
  obtain ⟨hlength, hall⟩ := assemble_of_link h
  refine List.ext_getElem (by rw [List.length_map, List.length_map, hlength]) fun j hj hj' => ?_
  rw [List.length_map] at hj hj'
  rw [List.getElem_map, List.getElem_map]
  exact name_of_assemble (hall j _ _ (List.getElem?_eq_getElem hj') (List.getElem?_eq_getElem hj))

/-- **A module is found by name** where the first unit of this name is. -/
theorem position?_of_link (h : link config units = .ok p) (name : String) :
    p.position? name = units.findIdx? fun u => u.name == name := by
  have hfind : p.position? name = (p.modules.map Assembled.name).findIdx? (· == name) := by
    rw [List.findIdx?_map]
    rfl
  rw [hfind, names_of_link h, List.findIdx?_map]
  rfl

/-- **A module is found by name** if it is that of the first unit of this name. -/
theorem position?_eq_some_iff (h : link config units = .ok p) {name : String} {j : Nat} :
    p.position? name = some j ↔
      ∃ u, units[j]? = some u ∧ u.name = name ∧ ∀ v ∈ units.take j, v.name ≠ name := by
  rw [position?_of_link h, List.findIdx?_eq_some_iff_getElem]
  constructor
  · rintro ⟨hj, hname, hbefore⟩
    refine ⟨units[j], List.getElem?_eq_getElem hj, beq_iff_eq.1 hname, fun v hv heq => ?_⟩
    obtain ⟨i, hi, rfl⟩ := List.mem_take_iff_getElem.1 hv
    exact hbefore i (Nat.lt_of_lt_of_le hi (Nat.min_le_left ..)) (beq_iff_eq.2 heq)
  · rintro ⟨u, hu, hname, hbefore⟩
    obtain ⟨hj, rfl⟩ := List.getElem?_eq_some_iff.1 hu
    refine ⟨hj, beq_iff_eq.2 hname, fun i hi heq => ?_⟩
    have hv : units[i] ∈ units.take j :=
      List.mem_take_iff_getElem.2 ⟨i, Nat.lt_min.2 ⟨hi, Nat.lt_trans hi hj⟩, rfl⟩
    exact hbefore _ hv (beq_iff_eq.1 heq)

/-- **No module is found by name** if no unit has this name. -/
theorem position?_eq_none_iff (h : link config units = .ok p) {name : String} :
    p.position? name = none ↔ ∀ u ∈ units, u.name ≠ name := by
  simp only [position?_of_link h, List.findIdx?_eq_none_iff, beq_eq_false_iff_ne]

/-- **With names of their own, units are found by them.** -/
theorem position?_own (h : link config units = .ok p) (hnodup : (units.map SourceUnit.name).Nodup) {j : Nat}
    {u : SourceUnit} (hu : units[j]? = some u) : p.position? u.name = some j := by
  refine (position?_eq_some_iff h).2 ⟨u, hu, rfl, fun v hv heq => ?_⟩
  obtain ⟨i, hi, rfl⟩ := List.mem_take_iff_getElem.1 hv
  obtain ⟨hij, hilength⟩ := Nat.lt_min.1 hi
  have hname : (units.map SourceUnit.name)[i]? = (units.map SourceUnit.name)[j]? := by
    rw [List.getElem?_map, List.getElem?_map, hu, List.getElem?_eq_getElem hilength, Option.map_some,
      Option.map_some, heq]
  rw [← List.length_map (f := SourceUnit.name)] at hilength
  exact absurd ((List.getElem?_inj hilength hnodup).1 hname) (Nat.ne_of_lt hij)

/-- **The keys of a module** are those of the loader and of the units before it, and they differ if and only if
these units are unambiguous. -/
theorem keys_of_link (h : link config units = .ok p) {k : Nat} {b : Assembled} (hb : p.modules[k]? = some b) :
    b.code.imports.map Import.key = Import.keys Loader.owner Loader.names ++
      (units.take k).flatMap (fun u => Import.keys u.name u.symbols) ∧
    ((b.code.imports.map Import.key).Nodup ↔ Unambiguous (units.take k)) := by
  have hk : k < units.length := (assemble_of_link h).1 ▸ (List.getElem?_eq_some_iff.1 hb).1
  rw [imports_of_link h (List.getElem?_eq_getElem hk) hb]
  exact ⟨(linked_of_link h k).keys_eq, (linked_of_link h k).nodup_keys_iff⟩

/-- **The keys of imports differ if and only if the units before are unambiguous.**  They are the keys of the
loader and one for each symbol of each unit before, and all differ when the units have names of their own, none
that of the loader.  By a name the module of the first unit with it is found, or nothing if there is none; when
the units have names of their own, the module of the one unit with it. -/
theorem Link.import_keys (h : link config units = .ok p) :
    (∀ k b, p.modules[k]? = some b →
      b.code.imports.map Import.key = Import.keys Loader.owner Loader.names ++
        (units.take k).flatMap (fun u => Import.keys u.name u.symbols) ∧
      ((b.code.imports.map Import.key).Nodup ↔ Unambiguous (units.take k))) ∧
    (∀ name j, p.position? name = some j ↔
      ∃ u a, units[j]? = some u ∧ p.modules[j]? = some a ∧
        assemble config (.after config.minPages (units.take j)) u =
          .ok (a, .after config.minPages (units.take (j + 1))) ∧
        u.name = name ∧ a.name = name ∧ ∀ v ∈ units.take j, v.name ≠ name) ∧
    (∀ name, p.position? name = none ↔ ∀ u ∈ units, u.name ≠ name) ∧
    ((units.map SourceUnit.name).Nodup →
      (∀ j u, units[j]? = some u → p.position? u.name = some j) ∧
      (Loader.owner ∉ units.map SourceUnit.name →
        ∀ b ∈ p.modules, (b.code.imports.map Import.key).Nodup)) := by
  obtain ⟨hlength, hall⟩ := assemble_of_link h
  refine ⟨fun k b => keys_of_link h, fun name j => ?_, fun name => position?_eq_none_iff h,
    fun hnodup => ⟨fun j u => position?_own h hnodup, fun hloader b hb => ?_⟩⟩
  · rw [position?_eq_some_iff h]
    constructor
    · rintro ⟨u, hu, hname, hbefore⟩
      have hj : j < p.modules.length := hlength ▸ (List.getElem?_eq_some_iff.1 hu).1
      have hassemble := hall j u _ hu (List.getElem?_eq_getElem hj)
      exact ⟨u, _, hu, List.getElem?_eq_getElem hj, hassemble, hname,
        (name_of_assemble hassemble).trans hname, hbefore⟩
    · rintro ⟨u, -, hu, -, -, hname, -, hbefore⟩
      exact ⟨u, hu, hname, hbefore⟩
  · obtain ⟨k, hk⟩ := List.getElem?_of_mem hb
    have htake : ((units.take k).map SourceUnit.name).Sublist (units.map SourceUnit.name) :=
      (List.take_sublist k units).map SourceUnit.name
    exact (keys_of_link h hk).2.2 (.of_names (hnodup.sublist htake) fun hmem => hloader (htake.subset hmem))

end Linked

namespace Tally

/-- **The counter and the client** are found by their names, and what the client imports is told apart. -/
theorem import_keys_client :
    ∃ p b, link { validated := false } [counter, client] = .ok p ∧ p.modules[1]? = some b ∧
      (b.code.imports.map Import.key).Nodup ∧ Unambiguous [counter] ∧ p.position? "client" = some 1 ∧
      p.position? "tally" = none := by
  obtain ⟨p, b, hp, hb⟩ : ∃ p b, link { validated := false } [counter, client] = .ok p ∧
      p.modules[1]? = some b := ⟨_, _, rfl, rfl⟩
  obtain ⟨hkeys, -, hnone, hnames⟩ := Link.import_keys hp
  obtain ⟨hfound, hnodup⟩ := hnames (by decide)
  have hb' := hnodup (by decide) b (List.mem_of_getElem? hb)
  exact ⟨p, b, hp, hb, hb', (hkeys 1 b hb).2.1 hb', hfound 1 client rfl, (hnone "tally").2 (by decide)⟩

/-- A unit with the name of the loader, and a function with that of its hook. -/
def impostor : SourceUnit where
  name := "runtime"
  decls := [.function
    { name := "debug", isPublic := true, args := [], locals := [], results := [.u32]
      body := .literal .u32 "1" }]

/-- **Keys can come twice.**  Two units may have one name and share symbols, and a unit may have the name of the
loader and a symbol with that of its hook.  Then later modules import two items under one key.  By the name of
both units the first one is found. -/
theorem repeated_keys :
    (∃ p b, link {} [counter, counter, inverter] = .ok p ∧ p.modules[2]? = some b ∧
      ¬ (b.code.imports.map Import.key).Nodup ∧ p.position? "counter" = some 0) ∧
    ∃ p b, link {} [impostor, inverter] = .ok p ∧ p.modules[1]? = some b ∧
      ¬ (b.code.imports.map Import.key).Nodup := by
  constructor
  · have hlink : (link {} [counter, counter, inverter]).toOption.any (fun p =>
        (p.modules[2]?).any (fun b => decide ¬ (b.code.imports.map Import.key).Nodup) &&
        p.position? "counter" == some 0) = true := by
      decide +kernel
    obtain ⟨p, hp, hmodules⟩ := ok_of_any hlink
    obtain ⟨hthird, hfound⟩ := Bool.and_eq_true_iff.1 hmodules
    obtain ⟨b, hb, hkeys⟩ := (Option.any_eq_true _ _).1 hthird
    exact ⟨p, b, hp, hb, of_decide_eq_true hkeys, beq_iff_eq.1 hfound⟩
  · have hlink : (link {} [impostor, inverter]).toOption.any (fun p =>
        (p.modules[1]?).any fun b => decide ¬ (b.code.imports.map Import.key).Nodup) = true := by
      decide +kernel
    obtain ⟨p, hp, hsecond⟩ := ok_of_any hlink
    obtain ⟨b, hb, hkeys⟩ := (Option.any_eq_true _ _).1 hsecond
    exact ⟨p, b, hp, hb, of_decide_eq_true hkeys⟩

end Tally

end WasmLowering
