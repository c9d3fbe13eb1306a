/-
# What validation detects

Lowering looks neither at the kinds of operands nor at the number of arguments.
What is wrong there has to show in the emitted bytes, where it is validation that
looks.  Of the units that are linked and validated, a function is well kinded just
if its body is regular (`WasmLowering.Proofs.KindRecovery`).  What is not regular, a
surplus argument or a cast without code of a word of the other kind, need not show:

| body                                                  | code                |
|-------------------------------------------------------|---------------------|
| `g (f 1 2)`, where `f` has one parameter and `g` two  | that of `g 1 (f 2)` |
| a word of 64 bits, cast between two widths of 32 bits | that of the word    |

The link is followed backwards: a valid module has typed bodies
(`WasmLowering.Proofs.AcceptedModules`) if it is orderly, which every assembled
module is (`WasmLowering.Proofs.OrderlyLowering`).
-/

import WasmLowering.Proofs.AcceptedModules
import WasmLowering.Proofs.IndexStability
import WasmLowering.Proofs.KindRecovery

namespace WasmLowering

open Wasm

/-! ## Calls within an expression -/

namespace Expr

mutual

/-- The calls within an expression: the names that are called, with the arguments. -/
def calls : Expr → List (String × List Expr)
  | binary _ _ lhs rhs => lhs.calls ++ rhs.calls
  | call name args => (name, args) :: callsOf args
  | bufCreate _ count => count.calls
  | bufRead _ base index => base.calls ++ index.calls
  | bufWrite _ base index value => base.calls ++ index.calls ++ value.calls
  | bufSub _ base index => base.calls ++ index.calls
  | cast operand _ _ => operand.calls
  | ifThenElse cond whenTrue whenFalse _ => cond.calls ++ whenTrue.calls ++ whenFalse.calls
  | assign _ value => value.calls
  | whileLoop cond body => cond.calls ++ body.calls
  | ignore operand => operand.calls
  | sequence items => callsOf items
  | _ => []

/-- The calls within some expressions. -/
def callsOf : List Expr → List (String × List Expr)
  | [] => []
  | e :: es => e.calls ++ callsOf es

end

end Expr

section Calls

variable {spaces : IndexSpaces} {scope : Scope} {vars : List Kind}

/-- A call passes one argument for each parameter of the function that its name stands for, of the
parameter's kind. -/
def Scope.Passes (spaces : IndexSpaces) (scope : Scope) (vars : List Kind) (c : String × List Expr) : Prop :=
  ∃ t, scope.callee? spaces c.1 = some t ∧ c.2.length = t.params.length ∧
    HaveKinds spaces scope vars c.2 t.params

/-- Every call within the body of a function passes what it should. -/
def Function.CallsPass (spaces : IndexSpaces) (scope : Scope) (f : Function) : Prop :=
  ∀ c ∈ f.body.calls, scope.Passes spaces ((f.args ++ f.locals).map Width.kind) c

/-- Whether the body of a function is regular. -/
def Function.isRegular (spaces : IndexSpaces) (scope : Scope) (f : Function) : Bool :=
  f.body.isRegular spaces scope ((f.args ++ f.locals).map Width.kind)

mutual

/-- **Each call within an expression that has a kind** passes what its function takes. -/
theorem HasKind.passes : ∀ {e : Expr} {k : Kind}, HasKind spaces scope vars e k →
    ∀ c ∈ e.calls, scope.Passes spaces vars c
  | _, _, .binary hl hr => List.forall_mem_append.2 ⟨hl.passes, hr.passes⟩
  | _, _, .call hi ht hargs _ | _, _, .callVoid hi ht hargs _ =>
    List.forall_mem_cons.2 ⟨⟨_, Scope.callee?_eq hi ht, hargs.length_eq, hargs⟩, hargs.passes⟩
  | _, _, .bufCreate hn => hn.passes
  | _, _, .bufRead hb hi | _, _, .bufSub hb hi => List.forall_mem_append.2 ⟨hb.passes, hi.passes⟩
  | _, _, .bufWrite hb hi hv =>
    List.forall_mem_append.2 ⟨List.forall_mem_append.2 ⟨hb.passes, hi.passes⟩, hv.passes⟩
  | _, _, .cast ho => ho.passes
  | _, _, .ifThenElse hc ht he =>
    List.forall_mem_append.2 ⟨List.forall_mem_append.2 ⟨hc.passes, ht.passes⟩, he.passes⟩
  | _, _, .assign _ hv => hv.passes
  | _, _, .whileLoop hc hb => List.forall_mem_append.2 ⟨hc.passes, hb.passes⟩
  | _, _, .ignore ho => ho.passes
  | _, _, .last he => List.forall_mem_append.2 ⟨he.passes, nofun⟩
  | _, _, .sequence he hes => List.forall_mem_append.2 ⟨he.passes, hes.passes⟩
  | _, _, .var _ | _, _, .global _ _ | _, _, .literal | _, _, .string | _, _, .empty | _, _, .pushFrame
  | _, _, .popFrame => nofun

theorem HaveKinds.passes : ∀ {es : List Expr} {ks : List Kind}, HaveKinds spaces scope vars es ks →
    ∀ c ∈ Expr.callsOf es, scope.Passes spaces vars c
  | _, _, .nil => nofun
  | _, _, .cons he hes => List.forall_mem_append.2 ⟨he.passes, hes.passes⟩

end

/-- **A well-kinded function** passes what it should. -/
theorem Function.WellKinded.callsPass {f : Function} (h : f.WellKinded spaces scope) :
    f.CallsPass spaces scope := by
  obtain ⟨k, hk, -⟩ := h
  exact hk.passes

/-- **A well-kinded function is regular.** -/
theorem Function.WellKinded.isRegular {f : Function} (h : f.WellKinded spaces scope) :
    f.isRegular spaces scope = true := by
  obtain ⟨k, hk, -⟩ := h
  exact hk.isRegular

end Calls

/-! ## Assembled modules are orderly -/

theorem exists_mem_zip {α β : Type} {as : List α} {bs : List β} (hlength : bs.length = as.length)
    {a : α} (ha : a ∈ as) : ∃ b, (a, b) ∈ as.zip bs := by
  obtain ⟨i, hi, rfl⟩ := List.mem_iff_getElem.1 ha
  have hzip : i < (as.zip bs).length := by
    rw [List.length_zip]
    omega
  have hpair : (as.zip bs)[i] = (as[i], bs[i]) := List.getElem_zip
  exact ⟨bs[i], hpair ▸ List.getElem_mem hzip⟩

/-- **A global copies imported globals only.** -/
theorem Assembly.imported_of_globalDef {scope : Scope} {g : Global} {d : GlobalDef} {i : Nat}
    (h : globalDef scope g = .ok d) (hi : d.init = .globalGet i) : i < scope.importedGlobals := by
  obtain ⟨init, hinit, h⟩ := ok_of_bind h
  cases h
  cases Starts.of_ofGlobal hinit with
  | value => cases hi
  | copy _ _ hlt =>
    cases hi
    exact hlt

section Assembled

variable {minPages : Nat} {units : List SourceUnit} {state next : LinkState} {config : Config}
  {u : SourceUnit} {scope : Scope} {a : Assembled}

/-- What the code of a unit may refer to answers for the unit's scope: it has all that the scope names, and
no function has more than one result. -/
structure Wasm.IndexSpaces.Answers (spaces : IndexSpaces) (scope : Scope) : Prop where
  fit : spaces.Fit scope
  functions : scope.functions.length ≤ spaces.functions.length
  globals : scope.globals.length ≤ spaces.globals.length
  hook : spaces.functions[Layout.traceHook]? = some ⟨[], []⟩
  results : ∀ t ∈ spaces.functions, t.results.length ≤ 1

/-- **A unit that is assembled** has functions with one result at most. -/
theorem results_of_assemble (ha : assemble config state u = .ok (a, next)) :
    ∀ t ∈ u.functions.map Function.type, t.results.length ≤ 1 := by
  obtain ⟨scope, bodies, segment, _, _, -, hb, -, -, -, -⟩ := assemble_eq_ok ha
  obtain ⟨hlength, hlower⟩ := Assembly.lower_of_lowerFunctions hb
  intro t ht
  obtain ⟨f, hf, rfl⟩ := List.mem_map.1 ht
  obtain ⟨body, hbody⟩ := exists_mem_zip hlength hf
  obtain ⟨start, stop, hl⟩ := hlower (f, body) hbody
  obtain ⟨hresults, -⟩ := Function.lower_eq_ok hl
  simpa [Function.type] using hresults

/-- **The types of a state that is reached** have one result at most. -/
theorem Linked.results (h : Linked minPages units state) : ∀ t ∈ state.types, t.results.length ≤ 1 := by
  induction h with
  | base => exact List.forall_mem_singleton.2 (Nat.zero_le 1)
  | unit _ ha ih =>
    have hown := results_of_assemble ha
    obtain rfl := next_of_assemble ha
    exact List.forall_mem_append.2 ⟨ih, hown⟩

/-- **What the code of an assembled unit may refer to** answers for its scope. -/
theorem Linked.answers (h : Linked minPages units state) (hs : Scope.ofUnit state u = .ok scope)
    (ha : assemble config state u = .ok (a, next)) : (state.spaces u).Answers scope := by
  have hal := h.aligned
  have hscope := Scope.eq_of_ofUnit hal hs
  refine ⟨LinkState.fit_spaces hal hs h.dataStart, ?_, ?_, ?_, ?_⟩
  · simp [hscope, LinkState.spaces, hal.types]
  · simp [hscope, LinkState.spaces]
  · rw [LinkState.spaces, hal.types]
    rfl
  · exact List.forall_mem_append.2 ⟨h.results, results_of_assemble ha⟩

/-- **An assembled unit is an orderly module,** well kinded or not, over every state that is reached. -/
theorem Linked.isOrderly (h : Linked minPages units state)
    (ha : assemble config state u = .ok (a, next)) : a.code.IsOrderly := by
  obtain ⟨scope, bodies, segment, globals, exports, hs, hb, hg, -, hcode, -⟩ := assemble_eq_ok ha
  have hal := h.aligned
  have hm := isModuleOf_assemble hal hs ha
  have hanswers := h.answers hs ha
  obtain ⟨-, hlower⟩ := Assembly.lower_of_lowerFunctions hb
  refine ⟨⟨minPages, h.memories_assemble ha⟩, ?_, length_bodies_of_assemble ha, fun b hmem => ?_⟩
  · have himported : scope.importedGlobals = a.code.importedGlobals.length := by
      rw [hm.importedGlobals, Scope.eq_of_ofUnit hal hs, List.length_map]
    have hglobals : a.code.globals = globals ++ [Assembly.sizeGlobal segment] := by rw [hcode]
    rw [hglobals, ← himported]
    refine List.forall_mem_append.2 ⟨?_, List.forall_mem_singleton.2 nofun⟩
    intro d hd i hi
    have hmem : Except.ok d ∈ u.globals.map (Assembly.globalDef scope) :=
      Assembly.map_of_globalDefs hg ▸ List.mem_map_of_mem hd
    obtain ⟨g, -, hdef⟩ := List.mem_map.1 hmem
    exact Assembly.imported_of_globalDef hdef hi
  · have hpair := List.mem_map_of_mem (f := fun b => (a.code.typeAt b.1, b.2)) hmem
    rw [hm.zip_bodies] at hpair
    obtain ⟨⟨f, body⟩, hf, heq⟩ := List.mem_map.1 hpair
    obtain ⟨htype, rfl⟩ := Prod.mk.inj heq
    rw [hcode] at hf
    obtain ⟨start, stop, hl⟩ := hlower (f, b.2) hf
    rw [hm.spaces, ← htype]
    exact Function.isOrderly_lower hanswers.fit hanswers.functions hanswers.globals hanswers.hook hl

/-- **The functions of a valid module** have been lowered to code of their types. -/
theorem Linked.hasType_of_validate (h : Linked minPages units state) (hs : Scope.ofUnit state u = .ok scope)
    (ha : assemble config state u = .ok (a, next)) (hvalid : validate a.code.encode = .ok ()) :
    ∀ f ∈ u.functions, ∃ body start stop, f.lower scope config.traced start = .ok body stop ∧
      Code.HasType (state.spaces u) (f.type.params ++ body.locals) [f.type.results] body.code []
        f.type.results.reverse := by
  have hbodies := Module.hasBody_of_validate (h.isOrderly ha) hvalid
  have hm := isModuleOf_assemble h.aligned hs ha
  obtain ⟨_, bodies, _, _, _, hs', hb, -, -, hcode, -⟩ := assemble_eq_ok ha
  obtain rfl := Except.ok.inj (hs.symm.trans hs')
  obtain ⟨hcount, hlower⟩ := Assembly.lower_of_lowerFunctions hb
  have hcode : a.code.bodies = bodies := by rw [hcode]
  intro f hf
  obtain ⟨body, hbody⟩ := exists_mem_zip hcount hf
  obtain ⟨start, stop, hl⟩ := hlower (f, body) hbody
  have hpair := List.mem_map_of_mem (f := fun b => (b.1.type, b.2)) hbody
  rw [← hcode, ← hm.zip_bodies] at hpair
  obtain ⟨⟨t, b⟩, hmem, heq⟩ := List.mem_map.1 hpair
  obtain ⟨htype, rfl⟩ := Prod.mk.inj heq
  have htyped : a.code.HasBody t b := hbodies (t, b) hmem
  unfold Module.HasBody at htyped
  rw [hm.spaces, htype] at htyped
  exact ⟨b, start, stop, hl, htyped⟩

end Assembled

/-! ## Linked programs -/

theorem ok_of_toOption {ε α : Type} {x : Except ε α} (h : x.toOption.isSome = true) : ∃ a, x = .ok a := by
  cases x with
  | ok a => exact ⟨a, rfl⟩
  | error e => cases h

/-- **Each module of a program that is linked and validated** is valid. -/
theorem validate_of_link {config : Config} {units : List SourceUnit} {p : Program}
    (h : link config units = .ok p) (hvalidated : config.validated = true) :
    ∀ a ∈ p.modules, validate a.code.encode = .ok () := by
  obtain ⟨modules, -, h⟩ := ok_of_bind h
  rw [if_pos hvalidated] at h
  obtain ⟨_, hall, h⟩ := ok_of_bind h
  cases h
  intro a ha
  exact ok_of_mapError (ok_of_forM hall a ha)

/-- **Validation tells well-kinded functions from others, if they are regular.**  Of the units that are
linked and validated, a function is well kinded just if no call within it has more arguments than there
are parameters and every cast without code is of a word of its source.  All its calls then pass one
argument for each parameter, of the parameter's kind. -/
theorem Link.wellKinded_iff {config : Config} {units : List SourceUnit} {p : Program}
    (h : link config units = .ok p) (hvalidated : config.validated = true) {j : Nat} {u : SourceUnit}
    (hu : units[j]? = some u) :
    ∃ scope spaces, Scope.ofUnit (.after config.minPages (units.take j)) u = .ok scope ∧
      spaces = (LinkState.after config.minPages (units.take j)).spaces u ∧
      ∀ f ∈ u.functions,
        (f.WellKinded spaces scope ↔ f.isRegular spaces scope = true) ∧
        (f.isRegular spaces scope = true → f.CallsPass spaces scope) := by
  obtain ⟨hlength, hall⟩ := assemble_of_link h
  have hj : j < p.modules.length := hlength ▸ (List.getElem?_eq_some_iff.1 hu).1
  have ha := hall j u p.modules[j] hu (List.getElem?_eq_getElem hj)
  have hvalid := validate_of_link h hvalidated _ (List.getElem_mem hj)
  have hlinked := linked_of_link h j
  obtain ⟨scope, _, _, _, _, hs, -, -, -, -, -⟩ := assemble_eq_ok ha
  have hanswers := hlinked.answers hs ha
  refine ⟨scope, _, hs, rfl, fun f hf => ?_⟩
  obtain ⟨body, start, stop, hlower, htyped⟩ := hlinked.hasType_of_validate hs ha hvalid f hf
  have hiff : f.WellKinded _ scope ↔ f.isRegular _ scope = true :=
    Function.wellKinded_iff_isRegular hanswers.fit hanswers.functions hanswers.globals hanswers.hook
      hanswers.results hlower htyped
  exact ⟨hiff, fun hregular => (hiff.2 hregular).callsPass⟩

/-- **The tally and the counter are linked and validated,** so the tally is well kinded, and it passes what
the counter's function takes, as it is regular. -/
theorem Tally.wellKinded_linked : ∃ p scope, link {} [counter, client] = .ok p ∧
    Scope.ofUnit ((LinkState.base 16).extend counter) client = .ok scope ∧
    function.WellKinded (((LinkState.base 16).extend counter).spaces client) scope ∧
    function.CallsPass (((LinkState.base 16).extend counter).spaces client) scope := by
  have hlink : (link {} [counter, client]).toOption.isSome = true := by decide +kernel
  obtain ⟨p, hp⟩ := ok_of_toOption hlink
  have hclient : [counter, client][1]? = some client := rfl
  obtain ⟨scope, _, hs, rfl, hall⟩ := Link.wellKinded_iff hp rfl hclient
  obtain ⟨hiff, hpass⟩ := hall function (List.mem_singleton_self _)
  have hregular : function.isRegular (((LinkState.base 16).extend counter).spaces client) scope = true := by
    cases hs
    decide
  exact ⟨p, scope, hp, hs, hiff.2 hregular, hpass hregular⟩

/-- A unit is linked and validated on its own although one of its functions is not well kinded. -/
def SourceUnit.IsUndetected (u : SourceUnit) : Prop :=
  ∃ p scope, link {} [u] = .ok p ∧ Scope.ofUnit (.base 16) u = .ok scope ∧
    ∃ f ∈ u.functions, ¬ f.WellKinded ((LinkState.base 16).spaces u) scope

/-- **A function that is not regular** is not detected if its unit is linked. -/
theorem SourceUnit.IsUndetected.of_irregular {u : SourceUnit} {scope : Scope} {f : Function}
    (hlink : (link {} [u]).toOption.isSome = true) (hs : Scope.ofUnit (.base 16) u = .ok scope)
    (hf : f ∈ u.functions) (hregular : f.isRegular ((LinkState.base 16).spaces u) scope = false) :
    u.IsUndetected := by
  obtain ⟨p, hp⟩ := ok_of_toOption hlink
  refine ⟨p, scope, hp, hs, f, hf, fun hkinded => ?_⟩
  rw [hkinded.isRegular] at hregular
  cases hregular

namespace Tally

/-- A function of two parameters that is given one argument, by a function of one parameter that is given
two. -/
def crossed : SourceUnit where
  name := "u"
  decls := [
    .function
      { name := "f", isPublic := true, args := [.u32], locals := [], results := [.u32], body := .var 0 },
    .function
      { name := "g", isPublic := true, args := [.u32, .u32], locals := [], results := [.u32]
        body := .var 0 },
    .function
      { name := "h", isPublic := true, args := [], locals := [], results := [.u32]
        body := .call "g" [.call "f" [.literal .u32 "1", .literal .u32 "2"]] }]

/-- A word of 64 bits that is cast between two widths of 32 bits. -/
def relabelled : SourceUnit where
  name := "u"
  decls := [
    .function
      { name := "wide", isPublic := true, args := [], locals := [], results := [.u64]
        body := .cast (.literal .u64 "1") .u32 .i32 }]

/-- **Neither mistake is detected.** -/
theorem undetected_mistakes : crossed.IsUndetected ∧ relabelled.IsUndetected := by
  constructor
  · exact .of_irregular (by decide +kernel) rfl (show _ ∈ crossed.functions from .tail _ (.tail _ (.head _))) rfl
  · exact .of_irregular (by decide +kernel) rfl (List.mem_singleton_self _) rfl

end Tally

end WasmLowering
