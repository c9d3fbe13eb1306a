/-
# Widths and kinds of initial values

A global is declared at a width, and its initializer has a width of its own: that
of a literal, or of the operator that is applied last.  Only the kinds of the two
are compared, and only if the initializer is a constant:

| initializer           | has the kind of the global | is in representation at its width |
|-----------------------|----------------------------|-----------------------------------|
| literal of a width    | always                     | if the global has no fewer bits   |
| operator at a width   | always                     | if the global has no fewer bits   |
| operator on `bool`    | always                     | if the global fills its word      |
| an imported global    | if the one imported has it | not told here                     |

A constant is cut to its own width and not to that of the global
(`Initializer.represents_constant`).  The name of an imported global stands for
what was declared last under it, and its kind is not looked at
(`Linked.kind_initializer`).
-/

import WasmLowering.Proofs.Representation

namespace WasmLowering

open Wasm

/-! ## Widths -/

/-- The width of a constant: that of the literal, or of the operator that is applied last.  What operators
on truth values give is not cut. -/
def Expr.constantWidth? : Expr → Option Width
  | .literal w _ => some w
  | .binary _ .bool _ _ => some .u32
  | .binary _ w _ _ => some w
  | _ => none

/-- **An operator at another width than `bool`** gives a constant of that width. -/
theorem Expr.constantWidth?_binary {w : Width} (hw : w ≠ .bool) (op : Operator) (lhs rhs : Expr) :
    (Expr.binary op w lhs rhs).constantWidth? = some w := by
  cases w with
  | bool => exact absurd rfl hw
  | _ => rfl

/-- A literal of a width that has more bits than the widths below it. -/
def Width.oversized (w : Width) : Expr :=
  match w with
  | u8 | i8 => .literal w "255"
  | u16 | i16 => .literal w "65535"
  | _ => .literal w "65536"

/-- **An oversized literal** is of its width and kind, and no pattern of a width with fewer bits. -/
theorem Width.eval_oversized {w : Width} (hw : w ≠ .bool) :
    ∃ v, Initializer.eval w.oversized = .ok v ∧ w.oversized.constantWidth? = some w ∧ v.kind = w.kind ∧
      ∀ d : Width, d.kind = w.kind → d.bits < w.bits → d.modulus ≤ v.toNat := by
  cases w with
  | bool => exact absurd rfl hw
  | _ => exact ⟨_, rfl, rfl, rfl, fun d => by cases d <;> decide⟩

/-- **A constant has a width,** of its kind, and is in representation there.  No constant is a truth value. -/
theorem Folds.represents {e : Expr} {v : Value} (h : Folds e v) :
    ∃ w, e.constantWidth? = some w ∧ w ≠ .bool ∧ v.kind = w.kind ∧ v.Represents w := by
  cases h with
  | @literal w text _ hv =>
    obtain ⟨hw, hlt⟩ := Literal.toNat_lt_of_parse hv
    exact ⟨w, rfl, hw, Literal.kind_of_parse hv, Value.represents_iff.2 (Width.below_bound hlt)⟩
  | @word op w lhs rhs x y z hk =>
    by_cases hw : w = .bool
    · subst hw
      exact ⟨.u32, rfl, by decide, rfl, Value.represents_iff.2 (Value.below_none _)⟩
    · exact ⟨w, Expr.constantWidth?_binary hw .., hw, hk.symm,
        Value.represents_iff.2 (Initializer.below_cut hw z)⟩
  | @wide op w lhs rhs x y z hk =>
    have hw : w ≠ .bool := by
      rintro rfl
      cases hk
    refine ⟨w, Expr.constantWidth?_binary hw .., hw, hk.symm, Value.represents_iff.2 ?_⟩
    rw [Width.bound_of_wide hk]
    exact Value.below_none _

/-- **A word in representation at a width below 32 bits** is one of its patterns. -/
theorem Value.Represents.lt_modulus {v : Value} {d : Width} (h : v.Represents d) (hd : d.bits < 32) :
    v.toNat < d.modulus :=
  represents_iff.1 h _ (if_pos hd)

/-- **A width with fewer bits than another of its kind** does not fill its word. -/
theorem Width.bits_lt_of_kind {d w : Width} (hk : w.kind = d.kind) (hlt : d.bits < w.bits) : d.bits < 32 := by
  revert hk hlt
  cases w <;> cases d <;> decide

/-- **A constant is in representation at the width of its global** if that has no fewer bits than its own,
and only then can this be told from its width.  An initializer that is a constant has a width, of the kind of
the global, and is in representation there.  Where the global has fewer bits, a constant of the same width is
accepted for it that is not in representation. -/
theorem Initializer.represents_constant {scope : Scope} {g : Global} {v : Value}
    (h : ofGlobal scope g = .ok (.value v)) :
    ∃ w, g.init.constantWidth? = some w ∧ w ≠ .bool ∧ w.kind = g.width.kind ∧ v.Represents w ∧
      (w.bits ≤ g.width.bits → v.Represents g.width) ∧
      (g.width.bits < w.bits → ∃ init v', init.constantWidth? = some w ∧
        ofGlobal scope { g with init } = .ok (.value v') ∧ ¬ v'.Represents g.width) := by
  obtain ⟨hv, hkind⟩ : Folds g.init v ∧ v.kind = g.width.kind := by
    cases Starts.of_ofGlobal h with
    | value hv hkind => exact ⟨hv, hkind⟩
  obtain ⟨w, hw, hbool, hk, hown⟩ := hv.represents
  have hkinds : w.kind = g.width.kind := hk.symm.trans hkind
  refine ⟨w, hw, hbool, hkinds, hown, fun hbits => ?_, fun hlt => ?_⟩
  · exact Value.represents_iff.2 (Width.bound_mono hbits v (Value.represents_iff.1 hown))
  · obtain ⟨v', heval, hwidth, hk', hle⟩ := Width.eval_oversized hbool
    refine ⟨w.oversized, v', hwidth, ofGlobal_of_eval scope heval (hk'.trans hkinds), fun hrep => ?_⟩
    exact Nat.not_lt.2 (hle g.width hkinds.symm hlt) (hrep.lt_modulus (Width.bits_lt_of_kind hkinds hlt))

namespace Tally

/-- A global of one byte, with a sum that is cut to it. -/
def low : Global :=
  { name := "low", isPublic := true, width := .u8
    init := .binary .add .u8 (.literal .u8 "0xFF") (.literal .u8 "2") }

/-- A global of one byte, with a sum of 32 bits. -/
def level : Global :=
  { name := "level", isPublic := true, width := .u8
    init := .binary .add .u32 (.literal .u32 "200") (.literal .u32 "100") }

/-- A truth value, with a literal of one byte. -/
def ready : Global := { name := "ready", isPublic := true, width := .bool, init := .literal .u8 "2" }

/-- A unit with the three of them. -/
def gauge : SourceUnit where
  name := "gauge"
  decls := [.global low, .global level, .global ready]

/-- **The sum of one byte** wraps to 1, which is in representation. -/
theorem represents_low :
    ∃ scope, Scope.ofUnit (.base 16) gauge = .ok scope ∧
      Initializer.ofGlobal scope low = .ok (.value (.i32 1)) ∧ (Value.i32 1).Represents low.width := by
  obtain ⟨scope, hs⟩ : ∃ scope, Scope.ofUnit (.base 16) gauge = .ok scope := ⟨_, rfl⟩
  have hlow : Initializer.ofGlobal scope low = .ok (.value (.i32 1)) := rfl
  obtain ⟨w, hw, -, -, -, hrep, -⟩ := Initializer.represents_constant hlow
  cases hw
  exact ⟨scope, hs, hlow, hrep (by decide)⟩

/-- **A constant is not cut to its global.**  The global of one byte starts as 300, and the truth value as
2. -/
theorem unmasked_initial_values :
    ∃ scope, Scope.ofUnit (.base 16) gauge = .ok scope ∧
      Initializer.ofGlobal scope level = .ok (.value (.i32 300)) ∧ ¬ (Value.i32 300).Represents level.width ∧
      Initializer.ofGlobal scope ready = .ok (.value (.i32 2)) ∧ ¬ (Value.i32 2).Represents ready.width := by
  obtain ⟨scope, hs⟩ : ∃ scope, Scope.ofUnit (.base 16) gauge = .ok scope := ⟨_, rfl⟩
  refine ⟨scope, hs, rfl, fun h => ?_, rfl, fun h => ?_⟩
  · exact absurd (h.lt_modulus (by decide)) (by decide)
  · exact absurd (h.lt_modulus (by decide)) (by decide)

end Tally

/-! ## Kinds -/

/-- The names and kinds of the globals that a unit inherits from others: the address of the segment, then
what they declare, in order. -/
def inheritedGlobals (units : List SourceUnit) : List (String × Kind) :=
  (Loader.dataStart, .i32) :: (units.flatMap SourceUnit.globals).map fun g => (g.name, g.width.kind)

/-- The kind of the global that was declared last under a name. -/
def latestKind? (units : List SourceUnit) (name : String) : Option Kind :=
  ((inheritedGlobals units).reverse.find? fun g => g.1 == name).map Prod.snd

/-- **The last item with a property** is the first one from the end. -/
theorem find?_reverse_eq {α : Type} (p : α → Bool) (as : List α) :
    as.reverse.find? p = (lastIdx? p as).bind (as[·]?) := by
  induction as with
  | nil => rfl
  | cons a as ih =>
    rw [List.reverse_cons, List.find?_append, ih, lastIdx?]
    cases hrest : lastIdx? p as with
    | some j =>
      have hget := List.getElem?_eq_getElem (lastIdx?_lt hrest)
      simp [hget]
    | none =>
      by_cases ha : p a = true
      · simp [ha]
      · simp [ha]

/-- **The last item among the first ones** is the last of these. -/
theorem lastIdx?_of_append {α : Type} {p : α → Bool} {as bs : List α} {i : Nat}
    (h : lastIdx? p (as ++ bs) = some i) (hlt : i < as.length) : lastIdx? p as = some i := by
  rw [lastIdx?_append] at h
  cases hbs : lastIdx? p bs with
  | none =>
    rw [hbs] at h
    exact h
  | some j =>
    rw [hbs] at h
    cases h
    exact absurd hlt (Nat.not_lt.2 (Nat.le_add_right ..))

section Linked

variable {minPages : Nat} {units : List SourceUnit} {state : LinkState} {u : SourceUnit} {scope : Scope}

/-- **The imported globals of a state that is reached** are the address and the globals of the units. -/
theorem Linked.globals_eq (h : Linked minPages units state) : state.globals = inheritedGlobals units := by
  have hglobals : state.globals = state.globalImports.filterMap Import.global? := by
    rw [LinkState.globals, LinkState.globalImports, List.filterMap_filter]
    refine congrArg (List.filterMap · _) (funext fun i => ?_)
    cases hi : i.entity <;> simp [Import.global?, Entity.kind?, hi]
  rw [hglobals, h.globalImports_eq]
  have howned (v : SourceUnit) :
      v.globalImports.filterMap Import.global? = v.globals.map fun g => (g.name, g.width.kind) := by
    rw [SourceUnit.globalImports, List.filterMap_map, ← List.filterMap_eq_map]
    rfl
  simp only [inheritedGlobals, List.map_flatMap, ← howned, ← List.filterMap_flatMap]
  rfl

/-- **An imported global that a name stands for** is the one declared last under it. -/
theorem Linked.kind_imported (h : Linked minPages units state) (hs : Scope.ofUnit state u = .ok scope)
    {name : String} {i : Nat} (hi : scope.global? name = some i) (hlt : i < scope.importedGlobals) :
    ∃ k, (state.globals.map Prod.snd)[i]? = some k ∧ latestKind? units name = some k := by
  rw [Scope.eq_of_ofUnit h.aligned hs] at hi hlt
  -- the name is not declared by the unit itself, since its index is that of an import
  have hlast : lastIdx? (fun g => g.1 == name) state.globals = some i := by
    rw [← lastIdx?_map (· == name) Prod.fst]
    exact lastIdx?_of_append hi (by rwa [List.length_map])
  have hget := List.getElem?_eq_getElem hlt
  refine ⟨state.globals[i].2, ?_, ?_⟩
  · rw [List.getElem?_map, hget]
    rfl
  · rw [latestKind?, ← h.globals_eq, find?_reverse_eq, hlast, Option.bind_some, hget]
    rfl

/-- **An initializer that is a constant has the kind of its global,** and a copy has the kind of what was
declared last under the name.  Over every state that units lead to and every unit with a scope there, what a
global starts as has one kind.  It is that of the global's width just if the initializer is not a name whose
latest declaration in the units before has another. -/
theorem Linked.kind_initializer (h : Linked minPages units state) (hs : Scope.ofUnit state u = .ok scope)
    {g : Global} {init : Initializer} (hinit : Initializer.ofGlobal scope g = .ok init) :
    (∀ v, init = .value v → v.kind = g.width.kind) ∧
    (∀ i, init = .imported i → ∃ name k, g.init = .global name ∧ latestKind? units name = some k ∧
      (state.globals.map Prod.snd)[i]? = some k) ∧
    ((Assembly.constExpr init).HasKind (state.globals.map Prod.snd) g.width.kind ↔
      ∀ name, g.init = .global name → latestKind? units name = some g.width.kind) := by
  cases Starts.of_ofGlobal hinit with
  | @value v hv hkind =>
    refine ⟨fun _ heq => ?_, fun _ heq => ?_, iff_of_true hkind fun name hname => ?_⟩
    · cases heq
      exact hkind
    · cases heq
    · -- a name is not a constant
      rw [hname] at hv
      cases hv
  | @copy name i hname hi hlt =>
    obtain ⟨k, hk, hlatest⟩ := h.kind_imported hs hi hlt
    refine ⟨fun _ heq => ?_, fun _ heq => ?_, ?_⟩
    · cases heq
    · cases heq
      exact ⟨name, k, hname, hlatest, hk⟩
    · show (state.globals.map Prod.snd)[i]? = some g.width.kind ↔ _
      rw [hk, ← hlatest, hname]
      simp

end Linked

namespace Tally

/-- A unit that declares the limit again, in 64 bits. -/
def raiser : SourceUnit where
  name := "raiser"
  decls := [.global { name := "limit", isPublic := true, width := .u64, init := .literal .u64 "3" }]

/-- A copy of the limit, in 64 bits. -/
def quota : Global := { name := "quota", isPublic := false, width := .u64, init := .global "limit" }

/-- A unit with the copy. -/
def planner : SourceUnit where
  name := "planner"
  decls := [.global quota]

/-- **The copy has the kind of the later limit,** which hides the counter's. -/
theorem kind_quota :
    Linked 16 [counter, raiser] (.after 16 [counter, raiser]) ∧
    ∃ scope, Scope.ofUnit (.after 16 [counter, raiser]) planner = .ok scope ∧
      Initializer.ofGlobal scope quota = .ok (.imported 2) ∧
      (Assembly.constExpr (.imported 2)).HasKind ((LinkState.after 16 [counter, raiser]).globals.map Prod.snd)
        quota.width.kind := by
  have hlinked : Linked 16 [counter, raiser] (.after 16 [counter, raiser]) := by
    obtain ⟨a, ha⟩ : ∃ a, assemble {} ((LinkState.base 16).extend counter) raiser =
        .ok (a, .after 16 [counter, raiser]) := ⟨_, rfl⟩
    exact .unit linked_counter ha
  obtain ⟨scope, hs, hquota⟩ : ∃ scope, Scope.ofUnit (.after 16 [counter, raiser]) planner = .ok scope ∧
      Initializer.ofGlobal scope quota = .ok (.imported 2) := ⟨_, rfl, rfl⟩
  obtain ⟨-, -, hkind⟩ := hlinked.kind_initializer hs hquota
  refine ⟨hlinked, scope, hs, hquota, hkind.2 fun name hname => ?_⟩
  cases hname
  rfl

/-- A copy of the segment's address, in 64 bits. -/
def start : Global := { name := "start", isPublic := true, width := .u64, init := .global "data_start" }

/-- A unit with that copy. -/
def locator : SourceUnit where
  name := "locator"
  decls := [.global start]

/-- **A copy may have another kind than its global.**  The global of 64 bits starts as an address, which has
32. -/
theorem kind_start_unchecked :
    ∃ scope, Scope.ofUnit (.base 16) locator = .ok scope ∧
      Initializer.ofGlobal scope start = .ok (.imported 0) ∧
      (Assembly.constExpr (.imported 0)).HasKind ((LinkState.base 16).globals.map Prod.snd) .i32 ∧
      ¬ (Assembly.constExpr (.imported 0)).HasKind ((LinkState.base 16).globals.map Prod.snd)
        start.width.kind := by
  refine ⟨_, rfl, rfl, rfl, ?_⟩
  rintro ⟨⟩

end Tally

end WasmLowering
