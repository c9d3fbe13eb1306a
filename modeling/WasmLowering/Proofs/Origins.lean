/-
# Where a failed link failed

Units are assembled in turn, and in each unit its functions are lowered in turn.
Both stop at the first failure, and the report says where that was:

| what failed first                | unit named | function named |
|----------------------------------|------------|----------------|
| the declarations of a unit       | the unit   | none           |
| a function of a unit             | the unit   | the function   |
| the initializer of a global      | the unit   | none           |

Exports could be refused without a unit, as nothing around them notes one.  But
what they look up is what the unit itself declares, and over a state that is
reached these names are always bound (`Assembly.raises_exports_own`).
-/

import Mathlib.Data.Nat.Find
import WasmLowering.Proofs.Provision

namespace WasmLowering

open Wasm

/-! ## The first function that fails -/

namespace Assembly

variable {scope : Scope} {traced : Bool} {f : Function} {fs : List Function} {seg mid left : Segment}
  {fault cause : Fault}

/-- **Lowering that fails** fails in a function all functions before which are lowered. -/
theorem exists_of_bodies_error (h : bodies scope traced fs seg = .error fault left) :
    ∃ q f bs mid cause, fs[q]? = some f ∧ bodies scope traced (fs.take q) seg = .ok bs mid ∧
      f.lower scope traced mid = .error cause left ∧ fault = .inFunction f.name cause := by
  induction fs generalizing seg with
  | nil => cases h
  | cons g fs ih =>
    cases hg : g.lower scope traced seg with
    | error cause stop =>
      rw [bodies_of_error hg] at h
      cases h
      exact ⟨0, g, [], seg, cause, rfl, rfl, hg, rfl⟩
    | ok b mid =>
      rw [bodies_of_ok hg, Lower.map_eq_error] at h
      obtain ⟨q, f, bs, start, cause, hf, htake, hfails, hfault⟩ := ih h
      exact ⟨q + 1, f, b :: bs, start, cause, hf, bodies_cons_eq_ok.2 ⟨b, mid, bs, hg, htake, rfl⟩, hfails, hfault⟩

/-- **A function that fails behind lowered ones** gives the fault of all. -/
theorem bodies_eq_error {q : Nat} {bs : List FuncBody} (hf : fs[q]? = some f)
    (htake : bodies scope traced (fs.take q) seg = .ok bs mid)
    (hfails : f.lower scope traced mid = .error cause left) :
    bodies scope traced fs seg = .error (.inFunction f.name cause) left := by
  induction fs generalizing seg q bs with
  | nil => cases hf
  | cons g fs ih =>
    cases q with
    | zero =>
      cases hf
      cases htake
      exact bodies_of_error hfails
    | succ q =>
      obtain ⟨b, next, rest, hg, hrest, -⟩ := bodies_cons_eq_ok.1 htake
      rw [bodies_of_ok hg, Lower.map_eq_error]
      exact ih hf hrest

end Assembly

/-- Lowering function `q` of a unit fails, and the functions before it are lowered. -/
def SourceUnit.FailsAt (u : SourceUnit) (state : LinkState) (traced : Bool) (q : Nat) (f : Function)
    (cause : Fault) : Prop :=
  ∃ scope bodies segment left, Scope.ofUnit state u = .ok scope ∧ u.functions[q]? = some f ∧
    Assembly.bodies scope traced (u.functions.take q) .empty = .ok bodies segment ∧
    f.lower scope traced segment = .error cause left

section Unit

variable {config : Config} {state : LinkState} {u : SourceUnit} {q : Nat} {f : Function} {cause : Fault}

/-- **A unit with a function that fails** is refused for what the function failed for. -/
theorem assemble_of_failsAt (h : u.FailsAt state config.traced q f cause) :
    assemble config state u = .error (.inUnit u.name (.inFunction f.name cause)) := by
  obtain ⟨scope, bodies, segment, left, hs, hf, htake, hfails⟩ := h
  have hfunctions : Assembly.lowerFunctions scope config.traced u =
      .error (.inUnit u.name (.inFunction f.name cause)) := by
    rw [Assembly.lowerFunctions, Assembly.bodies_eq_error hf htake hfails]
  unfold assemble
  rw [hs]
  show (Assembly.checkTypes u.name _ scope >>= fun _ => Assembly.lowerFunctions scope config.traced u >>= _) = _
  rw [Assembly.checkTypes_of_ofUnit hs, hfunctions]
  rfl

/-- **What a function that fails is reported as** names the function and its unit. -/
theorem SourceUnit.FailsAt.located {traced : Bool} (h : u.FailsAt state traced q f cause) :
    (Fault.inUnit u.name (.inFunction f.name cause)).Located (some u.name) (some f.name) := by
  obtain ⟨scope, bodies, segment, left, -, -, -, hfails⟩ := h
  exact (f.raises_lower scope traced segment cause left hfails).inFunction.inUnit

/-- **Places only add notes on places.** -/
theorem Fault.notes_inUnit_inFunction (unit function : String) (cause : Fault) {k : NoteKey} (hu : k ≠ .unit)
    (hf : k ≠ .function) :
    (inUnit unit (inFunction function cause)).diagnostic.notes k = cause.diagnostic.notes k := by
  rw [diagnostic, Diagnostic.noteIfAbsent_notes_of_ne _ _ _ hu, diagnostic,
    Diagnostic.noteIfAbsent_notes_of_ne _ _ _ hf]

end Unit

/-! ## Every failure of a unit -/

/-- **A unit's own names are bound,** so its exports are never refused. -/
theorem Assembly.raises_exports_own {os : List Offer} {state : LinkState} (hal : state.Aligned os)
    {u : SourceUnit} {scope : Scope} (hs : Scope.ofUnit state u = .ok scope) (P : Fault → Prop) :
    Raises P (exports scope u) := by
  refine .bind (.mapM fun d hd => ?_) fun _ => .ok _
  by_cases hpublic : d.isPublic = true
  · cases d with
    | function f =>
      obtain ⟨p, hp⟩ := List.mem_iff_getElem?.1 (SourceUnit.mem_functions.2 hd)
      rw [export?_function hpublic (Scope.function?_own hal hs hp)]
      exact .ok _
    | global g =>
      obtain ⟨p, hp⟩ := List.mem_iff_getElem?.1 (SourceUnit.mem_globals.2 hd)
      rw [export?_global hpublic (Scope.global?_own hal hs hp)]
      exact .ok _
    | type n => cases hpublic
  · unfold export?
    rw [if_neg hpublic]
    exact .ok _

/-- A fault that names its unit, and names a function only if it is the first one that fails. -/
def Fault.NamesOrigin (u : SourceUnit) (state : LinkState) (traced : Bool) (fault : Fault) : Prop :=
  fault.diagnostic.notes .unit = some u.name ∧
  ∀ name, fault.diagnostic.notes .function = some name →
    ∃ q f cause, u.FailsAt state traced q f cause ∧ f.name = name

section Unit

variable {u : SourceUnit} {state : LinkState} {traced : Bool}

/-- **A fault outside of functions** names its origin if it names its unit. -/
theorem Fault.Located.namesOrigin {fault : Fault} (h : fault.Located (some u.name) none) :
    fault.NamesOrigin u state traced := by
  refine ⟨h.unit, fun name hname => ?_⟩
  rw [h.function] at hname
  cases hname

/-- **Functions that are not all lowered** are refused for the first one that fails. -/
theorem Assembly.raises_lowerFunctions_origin {scope : Scope} (hs : Scope.ofUnit state u = .ok scope) :
    Raises (Fault.NamesOrigin u state traced) (lowerFunctions scope traced u) := by
  unfold lowerFunctions
  split
  · exact .ok _
  · rename_i fault left h
    obtain ⟨q, f, bs, segment, cause, hf, htake, hfails, rfl⟩ := exists_of_bodies_error h
    have hat : u.FailsAt state traced q f cause := ⟨scope, bs, segment, left, hs, hf, htake, hfails⟩
    refine .error ⟨hat.located.unit, fun name hname => ?_⟩
    rw [hat.located.function] at hname
    exact ⟨q, f, cause, hat, Option.some.inj hname⟩

end Unit

/-- **A unit that is refused over a state that is reached** is named, and so is the function at fault. -/
theorem Linked.raises_assemble {minPages : Nat} {units : List SourceUnit} {state : LinkState}
    (h : Linked minPages units state) (config : Config) (u : SourceUnit) :
    Raises (Fault.NamesOrigin u state config.traced) (assemble config state u) := by
  refine .bind_of_ok ?_ fun scope hs => ?_
  · rw [Scope.ofUnit_eq h.aligned]
    exact (Scope.raises_addDecls u.name _ _ _).mono fun _ => Fault.Located.namesOrigin
  refine .bind (Assembly.raises_checkTypes hs _) fun _ => ?_
  refine .bind (Assembly.raises_lowerFunctions_origin hs) fun _ => ?_
  refine .bind ((Assembly.raises_globalDefs scope u).mono fun _ => Fault.Located.namesOrigin) fun _ => ?_
  exact .bind (Assembly.raises_exports_own h.aligned hs _) fun _ => .ok _

/-! ## The first unit that fails -/

namespace Link

/-- Assembling unit `j` of a list fails, over the state that the units before it leave. -/
def FailsAt (config : Config) (units : List SourceUnit) (j : Nat) (fault : Fault) : Prop :=
  ∃ u, units[j]? = some u ∧ assemble config (.after config.minPages (units.take j)) u = .error fault

variable {config : Config}

/-- **Behind units that are assembled** the rest goes on over the state that they leave. -/
theorem assembleAll_append {before : List SourceUnit} {state : LinkState} {as : List Assembled}
    (h : assembleAll config state before = .ok as) (later : List SourceUnit) :
    assembleAll config state (before ++ later) =
      (as ++ ·) <$> assembleAll config (before.foldl LinkState.extend state) later := by
  induction before generalizing state as with
  | nil =>
    cases h
    simp
  | cons u before ih =>
    obtain ⟨⟨first, next⟩, hfirst, h⟩ := ok_of_bind h
    obtain ⟨rest, hrest, h⟩ := ok_of_bind h
    cases h
    obtain rfl := next_of_assemble hfirst
    rw [List.cons_append, assembleAll, hfirst]
    show (assembleAll config (state.extend u) (before ++ later) >>= _) = _
    rw [ih hrest, List.foldl_cons]
    cases assembleAll config (before.foldl LinkState.extend (state.extend u)) later <;> rfl

/-- **Units none of which fails** are assembled, and the state that they leave is reached. -/
theorem assembled_of_not_failsAt {units : List SourceUnit} {j : Nat}
    (h : ∀ i < j, ∀ fault, ¬ FailsAt config units i fault) :
    Linked config.minPages (units.take j) (.after config.minPages (units.take j)) ∧
    ∃ as, assembleAll config (.base config.minPages) (units.take j) = .ok as := by
  induction j with
  | zero => exact ⟨.base, [], rfl⟩
  | succ j ih =>
    obtain ⟨hlinked, as, has⟩ := ih fun i hi => h i (Nat.lt_succ_of_lt hi)
    cases hu : units[j]? with
    | none =>
      rw [List.take_add_one, hu]
      simpa using ⟨hlinked, as, has⟩
    | some u =>
      cases ha : assemble config (.after config.minPages (units.take j)) u with
      | error fault => exact absurd ⟨u, hu, ha⟩ (h j (Nat.lt_succ_self j) fault)
      | ok r =>
        obtain ⟨a, next⟩ := r
        obtain rfl := next_of_assemble ha
        rw [LinkState.after_take_succ hu, List.take_add_one, hu]
        refine ⟨hlinked.unit ha, as ++ [a], ?_⟩
        rw [Option.toList_some, assembleAll_append has, assembleAll]
        change (as ++ ·) <$> (assemble config (.after config.minPages (units.take j)) u >>= _) = _
        rw [ha]
        rfl

/-- **The first unit that fails** decides the link, whatever comes after it. -/
theorem link_of_failsAt {units : List SourceUnit} {j : Nat} {fault : Fault} (hj : FailsAt config units j fault)
    (hfirst : ∀ i < j, ∀ cause, ¬ FailsAt config units i cause) (later : List SourceUnit) :
    link config (units.take (j + 1) ++ later) = .error fault := by
  obtain ⟨u, hu, hfails⟩ := hj
  obtain ⟨-, as, has⟩ := assembled_of_not_failsAt hfirst
  have hall : assembleAll config (.base config.minPages) (units.take (j + 1) ++ later) = .error fault := by
    rw [List.take_add_one, hu, Option.toList_some, List.append_assoc, assembleAll_append has, List.singleton_append,
      assembleAll]
    change (as ++ ·) <$> (assemble config (.after config.minPages (units.take j)) u >>= _) = _
    rw [hfails]
    rfl
  unfold link
  rw [hall]
  rfl

/-- **If a unit fails, one is the first to fail.** -/
theorem exists_first_failsAt {units : List SourceUnit} (h : ∃ j fault, FailsAt config units j fault) :
    ∃ j fault, FailsAt config units j fault ∧ ∀ i < j, ∀ cause, ¬ FailsAt config units i cause := by
  classical
  obtain ⟨fault, hfault⟩ := Nat.find_spec h
  exact ⟨Nat.find h, fault, hfault, fun i hi cause hc => Nat.find_min h hi ⟨cause, hc⟩⟩

/-- **Failures name their origin.**  A unit that is refused over a state that is reached is named in the
report, and a function is named only if it is the first of the unit that fails.  Such a function is always
named, and apart from these two names the report is that of its own failure.  A link with units that fail
gives exactly the fault of the first of them, whatever units come after it. -/
theorem fault_origin (config : Config) :
    (∀ minPages units state u fault, Linked minPages units state → assemble config state u = .error fault →
      fault.diagnostic.notes .unit = some u.name ∧
      ∀ name, fault.diagnostic.notes .function = some name →
        ∃ q f cause, u.FailsAt state config.traced q f cause ∧ f.name = name) ∧
    (∀ state u q f cause, u.FailsAt state config.traced q f cause →
      ∃ fault, assemble config state u = .error fault ∧
        fault.diagnostic.notes .unit = some u.name ∧ fault.diagnostic.notes .function = some f.name ∧
        fault.diagnostic.kind = cause.diagnostic.kind ∧ fault.diagnostic.message = cause.diagnostic.message ∧
        ∀ k, k ≠ .unit → k ≠ .function → fault.diagnostic.notes k = cause.diagnostic.notes k) ∧
    ∀ units, (∃ j fault, FailsAt config units j fault) →
      ∃ j u fault, units[j]? = some u ∧ FailsAt config units j fault ∧
        (∀ i < j, ∀ cause, ¬ FailsAt config units i cause) ∧
        fault.diagnostic.notes .unit = some u.name ∧ link config units = .error fault ∧
        ∀ later, link config (units.take (j + 1) ++ later) = .error fault := by
  refine ⟨fun minPages units state u fault h hu => h.raises_assemble config u fault hu, ?_, ?_⟩
  · intro state u q f cause h
    refine ⟨_, assemble_of_failsAt h, h.located.unit, h.located.function, ?_, ?_, ?_⟩
    · rw [Fault.diagnostic, Diagnostic.kind_noteIfAbsent, Fault.diagnostic, Diagnostic.kind_noteIfAbsent]
    · rw [Fault.diagnostic, Diagnostic.message_noteIfAbsent, Fault.diagnostic, Diagnostic.message_noteIfAbsent]
    · exact fun k hu hf => Fault.notes_inUnit_inFunction _ _ cause hu hf
  · intro units hfails
    obtain ⟨j, fault, hj, hfirst⟩ := exists_first_failsAt hfails
    have hlater := link_of_failsAt hj hfirst
    obtain ⟨u, hu, hfault⟩ := hj
    obtain ⟨hlinked, -⟩ := assembled_of_not_failsAt hfirst
    refine ⟨j, u, fault, hu, ⟨u, hu, hfault⟩, hfirst, (hlinked.raises_assemble config u fault hfault).1, ?_, hlater⟩
    rw [← List.take_append_drop (j + 1) units]
    exact hlater _

end Link

namespace Tally

/-- A function that calls what no unit declares. -/
def seek : Function where
  name := "seek"
  isPublic := true
  args := []
  locals := []
  results := [.u32]
  body := .call "find" [.string "needle"]

/-- A unit with that function behind one that is fine. -/
def searcher : SourceUnit where
  name := "searcher"
  decls := [
    .function
      { name := "hay", isPublic := false, args := [], locals := [], results := [.u32], body := .string "hay" },
    .function seek]

/-- **The search is what fails,** with or without the tally behind it. -/
theorem fault_origin_seek :
    (∃ j fault, Link.FailsAt {} [counter, searcher, client] j fault) ∧
    searcher.FailsAt (.after 16 [counter]) false 1 seek (.unbound .function "find") ∧
    ∃ fault, (∀ later, link {} (counter :: searcher :: later) = .error fault) ∧
      fault.diagnostic.notes .unit = some "searcher" ∧ fault.diagnostic.notes .function = some "seek" ∧
      fault.diagnostic.notes .symbol = some "find" := by
  have hseek : searcher.FailsAt (.after 16 [counter]) false 1 seek (.unbound .function "find") :=
    ⟨_, _, _, _, rfl, rfl, rfl, rfl⟩
  obtain ⟨-, hfunction, hlink⟩ := Link.fault_origin {}
  obtain ⟨fault, hfault, hunit, hname, -, -, hnotes⟩ := hfunction _ _ _ _ _ hseek
  have hfails : Link.FailsAt {} [counter, searcher, client] 1 fault := ⟨searcher, rfl, hfault⟩
  obtain ⟨j, u, first, hu, hj, hbefore, -, -, hlater⟩ := hlink _ ⟨1, fault, hfails⟩
  have hone : j = 1 := by
    rcases Nat.lt_trichotomy j 1 with hlt | heq | hgt
    · obtain rfl : j = 0 := by omega
      obtain ⟨_, hcounter, herror⟩ := hj
      cases hcounter
      cases herror
    · exact heq
    · exact absurd hfails (hbefore 1 hgt fault)
  subst hone
  obtain ⟨_, hsearcher, herror⟩ := hj
  cases hsearcher
  obtain rfl : fault = first := Except.error.inj (hfault.symm.trans herror)
  exact ⟨⟨1, fault, hfails⟩, hseek, fault, hlater, hunit, hname, hnotes .symbol (by decide) (by decide)⟩

end Tally

end WasmLowering
