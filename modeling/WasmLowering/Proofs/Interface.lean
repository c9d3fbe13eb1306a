/-
# What later units see of a unit

A unit leaves its functions and globals to the units behind it, as imports of
their modules.  Of a declaration only its prototype gets there:

| declaration | prototype                                       |
|-------------|-------------------------------------------------|
| a function  | its name, whether it is public, and its type    |
| a global    | its name, whether it is public, and its kind    |
| a type      | none                                            |

The prototypes in order are the interface of the unit.  Adding a unit to a link
state is a function of the unit's name and interface (`LinkState.extend_eq`), and
one that keeps interfaces apart (`LinkState.extend_eq_extend_iff`).  Bodies,
locals, initializers and the widths behind a kind stay in the module.
-/

import WasmLowering.Proofs.IndexStability

namespace WasmLowering

/-- What later units see of a declaration. -/
inductive Prototype where
  | function (name : String) (isPublic : Bool) (type : FuncType)
  | global (name : String) (isPublic : Bool) (kind : Kind)
  deriving DecidableEq, Repr

/-- What later units see of a declaration, if they see it at all. -/
def Decl.prototype? : Decl → Option Prototype
  | function f => some (.function f.name f.isPublic f.type)
  | global g => some (.global g.name g.isPublic g.width.kind)
  | type _ => none

/-- The interface of a unit: its functions and globals, as later units see them. -/
def SourceUnit.interface (u : SourceUnit) : List Prototype := u.decls.filterMap Decl.prototype?

namespace Prototype

/-- The types of the functions of an interface. -/
def types : List Prototype → List FuncType
  | [] => []
  | function _ _ type :: ps => type :: types ps
  | global _ _ _ :: ps => types ps

/-- The imports that an interface becomes; functions are typed from `first` on. -/
def imports (owner : String) : (first : Nat) → List Prototype → List Import
  | _, [] => []
  | first, function name isPublic _ :: ps =>
    { owner, name, entity := .function first, exported := isPublic } :: imports owner (first + 1) ps
  | first, global name isPublic kind :: ps =>
    { owner, name, entity := .global kind, exported := isPublic } :: imports owner first ps

/-! ## The interface is all that is seen -/

/-- **The types of a unit's functions** are those in its interface. -/
theorem types_interface (ds : List Decl) :
    types (ds.filterMap Decl.prototype?) = (ds.filterMap Decl.function?).map Function.type := by
  induction ds with
  | nil => rfl
  | cons d ds ih => cases d with
    | function f => exact congrArg (f.type :: ·) ih
    | global g => exact ih
    | type n => exact ih

/-- **The imports that declarations become** are those of their prototypes. -/
theorem imports_interface (owner : String) (first : Nat) (ds : List Decl) :
    imports owner first (ds.filterMap Decl.prototype?) = Assembly.declImports owner first ds := by
  induction ds generalizing first with
  | nil => rfl
  | cons d ds ih => cases d with
    | function f => exact congrArg (_ :: ·) (ih (first + 1))
    | global g => exact congrArg (_ :: ·) (ih first)
    | type n => exact ih first

/-- **An interface can be read off** the types and the imports that it becomes. -/
theorem eq_of_imports {owner : String} {first : Nat} {ps qs : List Prototype}
    (htypes : types ps = types qs) (himports : imports owner first ps = imports owner first qs) : ps = qs := by
  induction ps generalizing first qs with
  | nil => cases qs with
    | nil => rfl
    | cons q qs => cases q <;> cases himports
  | cons p ps ih => cases qs with
    | nil => cases p <;> cases himports
    | cons q qs =>
      -- An import tells whether it is a function; the type of a function is next in the types.
      cases p with
      | function name isPublic type => cases q with
        | function name' isPublic' type' =>
          simp only [types, imports, List.cons.injEq, Import.mk.injEq] at htypes himports
          obtain ⟨⟨-, rfl, -, rfl⟩, himports⟩ := himports
          rw [htypes.1, ih htypes.2 himports]
        | global name' isPublic' kind' => simp [imports] at himports
      | global name isPublic kind => cases q with
        | function name' isPublic' type' => simp [imports] at himports
        | global name' isPublic' kind' =>
          simp only [imports, List.cons.injEq, Import.mk.injEq, Entity.global.injEq] at himports
          obtain ⟨⟨-, rfl, rfl, rfl⟩, himports⟩ := himports
          have hrest : types ps = types qs := htypes
          rw [ih hrest himports]

end Prototype

namespace LinkState

variable {state : LinkState} {u v : SourceUnit}

/-- **A unit is added to a state by its name and its interface.** -/
theorem extend_eq (state : LinkState) (u : SourceUnit) :
    state.extend u =
      { types := state.types ++ Prototype.types u.interface
        imports := state.imports ++ Prototype.imports u.name state.types.length u.interface } := by
  rw [extend, SourceUnit.interface, Prototype.types_interface, Prototype.imports_interface]
  rfl

/-- **Units of one name are told apart by the state behind them just if their interfaces differ.** -/
theorem extend_eq_extend_iff (hname : v.name = u.name) :
    state.extend v = state.extend u ↔ v.interface = u.interface := by
  rw [extend_eq, extend_eq, hname]
  constructor
  · intro h
    rw [LinkState.mk.injEq, List.append_cancel_left_eq, List.append_cancel_left_eq] at h
    exact Prototype.eq_of_imports h.1 h.2
  · intro h
    rw [h]

end LinkState

/-! ## The units behind -/

/-- **Later modules depend on a unit through its interface alone.**  Two units of one name that are both
assembled over one state, each under settings of its own, leave the same state just if they have the same
interface.  Then whatever units follow, under any settings, either fail with the same fault or get the same
bytes.  In the second case each module passes its check in both links or fails it with one fault, so whichever
check is reported first, the links can report the same. -/
theorem later_modules {state : LinkState} {u v : SourceUnit} (hname : v.name = u.name) {config config' : Config}
    {a b : Assembled} {next next' : LinkState} (ha : assemble config state u = .ok (a, next))
    (hb : assemble config' state v = .ok (b, next')) :
    (v.interface = u.interface ↔ next' = next) ∧
    (v.interface = u.interface → ∀ (settings : Config) (after : List SourceUnit),
      (∃ fault, Link.assembleAll settings next after = .error fault ∧
        Link.assembleAll settings next' after = .error fault) ∨
      ∃ as bs, Link.assembleAll settings next after = .ok as ∧ Link.assembleAll settings next' after = .ok bs ∧
        as.map Assembled.name = bs.map Assembled.name ∧ as.map Assembled.bytes = bs.map Assembled.bytes ∧
        as.map (fun m => checkModule m.name m.bytes) = bs.map fun m => checkModule m.name m.bytes) := by
  obtain rfl := next_of_assemble ha
  obtain rfl := next_of_assemble hb
  refine ⟨(LinkState.extend_eq_extend_iff hname).symm, fun hinterface settings after => ?_⟩
  rw [(LinkState.extend_eq_extend_iff hname).2 hinterface]
  cases h : Link.assembleAll settings (state.extend u) after with
  | error fault => exact .inl ⟨fault, rfl, rfl⟩
  | ok as => exact .inr ⟨as, as, rfl, rfl, rfl, rfl, rfl⟩

namespace Tally

/-- The counter with another body, a local, another width of the same kind and another limit, without the
type. -/
def recounter : SourceUnit where
  name := "counter"
  decls := [
    .function
      { name := "next", isPublic := true, args := [.i32], locals := [.u64], results := [.u32]
        body := .ifThenElse (.var 0) (.var 0) (.literal .u32 "9") .u32 },
    .global { name := "limit", isPublic := true, width := .i16, init := .literal .i16 "-1" }]

/-- **The client gets the same module behind either counter,** though one of them is traced. -/
theorem later_modules_client :
    ∃ a b next next', recounter.name = counter.name ∧
      assemble {} (.base 16) counter = .ok (a, next) ∧
      assemble { traced := true } (.base 16) recounter = .ok (b, next') ∧
      a.bytes ≠ b.bytes ∧ next' = next ∧
      ∃ m m', Link.assembleAll {} next [client] = .ok [m] ∧ Link.assembleAll {} next' [client] = .ok [m'] ∧
        m.name = "client" ∧ m'.name = "client" ∧ m.bytes = m'.bytes ∧
        checkModule m.name m.bytes = checkModule m'.name m'.bytes := by
  obtain ⟨a, next, ha⟩ : ∃ a next, assemble {} (.base 16) counter = .ok (a, next) := ⟨_, _, rfl⟩
  obtain ⟨b, next', hb⟩ : ∃ b next', assemble { traced := true } (.base 16) recounter = .ok (b, next') :=
    ⟨_, _, rfl⟩
  have hname : recounter.name = counter.name := rfl
  have hinterface : recounter.interface = counter.interface := rfl
  obtain ⟨hnext, hlater⟩ := later_modules hname ha hb
  refine ⟨a, b, next, next', hname, ha, hb, ?_, hnext.1 hinterface, ?_⟩
  · cases ha
    cases hb
    decide +kernel
  · obtain ⟨m, hm, hclient⟩ : ∃ m, Link.assembleAll {} next [client] = .ok [m] ∧ m.name = "client" := by
      cases ha
      exact ⟨_, rfl, rfl⟩
    obtain ⟨m', hm'⟩ : ∃ m', Link.assembleAll {} next' [client] = .ok [m'] := by
      cases hb
      exact ⟨_, rfl⟩
    rcases hlater hinterface {} [client] with ⟨fault, hfault, -⟩ | ⟨as, bs, has, hbs, hnames, hbytes, hchecks⟩
    · cases hm.symm.trans hfault
    · obtain rfl := Except.ok.inj (hm.symm.trans has)
      obtain rfl := Except.ok.inj (hm'.symm.trans hbs)
      have hsame : m.name = m'.name := (List.cons.inj hnames).1
      exact ⟨m, m', hm, hm', hclient, hsame ▸ hclient, (List.cons.inj hbytes).1, (List.cons.inj hchecks).1⟩

end Tally

end WasmLowering
