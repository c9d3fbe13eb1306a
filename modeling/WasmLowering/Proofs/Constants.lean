/-
# What globals start as

Folding a constant is a computation that may fail.  Here it is a relation, with
one rule per form that a constant has: `Folds e v` says that `e` is a constant of
value `v`.  An operator is computed in words of its width's kind:

| kind  | operands     | value                        |
|-------|--------------|------------------------------|
| `i32` | 32-bit words | the result, cut if narrow    |
| `i64` | 64-bit words | the result                   |

A global starts as a constant of its kind, or as a copy of an imported global
(`Starts`), whose kind is not looked at.  What is said about initializers is said
by induction or by cases on these rules (`Folds.of_eval`, `Starts.of_ofGlobal`).
-/

import WasmLowering.Proofs.Blame
import WasmLowering.Proofs.Lowering

namespace WasmLowering

/-- An expression is a constant of a value. -/
inductive Folds : Expr → Value → Prop
  | literal {w : Width} {text : String} {v : Value} :
    Literal.parse w text = .ok v → Folds (.literal w text) v
  | word {op : Operator} {w : Width} {lhs rhs : Expr} {x y z : BitVec 32} :
    w.kind = .i32 → Folds lhs (.i32 x) → Folds rhs (.i32 y) → Initializer.compute? op x y = some z →
      Folds (.binary op w lhs rhs) (.i32 (Initializer.cut w z))
  | wide {op : Operator} {w : Width} {lhs rhs : Expr} {x y z : BitVec 64} :
    w.kind = .i64 → Folds lhs (.i64 x) → Folds rhs (.i64 y) → Initializer.compute? op x y = some z →
      Folds (.binary op w lhs rhs) (.i64 z)

/-- **An operator on constants** has operands of its kind, and computes its value from them. -/
theorem Folds.of_binary {op : Operator} {w : Width} {lhs rhs : Expr} {a b v : Value} (hl : Folds lhs a)
    (hr : Folds rhs b) (h : Initializer.binary op w a b = .ok v) : Folds (.binary op w lhs rhs) v := by
  unfold Initializer.binary at h
  split at h
  · rename_i x y
    split at h
    · rename_i hk
      cases hz : Initializer.compute? op x y with
      | none =>
        rw [hz] at h
        cases h
      | some z =>
        rw [hz] at h
        cases h
        exact .word hk hl hr hz
    · cases h
  · rename_i x y
    split at h
    · rename_i hk
      cases hz : Initializer.compute? op x y with
      | none =>
        rw [hz] at h
        cases h
      | some z =>
        rw [hz] at h
        cases h
        exact .wide hk hl hr hz
    · cases h
  · cases h

/-- **What folding gives** is the value of a constant. -/
theorem Folds.of_eval {e : Expr} {v : Value} (h : Initializer.eval e = .ok v) : Folds e v := by
  fun_induction Initializer.eval e generalizing v with
  | case1 w text => exact .literal h
  | case2 op w lhs rhs ihl ihr =>
    obtain ⟨a, ha, h⟩ := ok_of_bind h
    obtain ⟨b, hb, h⟩ := ok_of_bind h
    exact .of_binary (ihl ha) (ihr hb) h
  | case3 e => cases h

/-- A global starts as something, in a scope. -/
inductive Starts (scope : Scope) (g : Global) : Initializer → Prop
  | value {v : Value} : Folds g.init v → v.kind = g.width.kind → Starts scope g (.value v)
  | copy {name : String} {i : Nat} :
    g.init = .global name → scope.global? name = some i → i < scope.importedGlobals →
      Starts scope g (.imported i)

/-- **What a global is made to start as** goes by one of the rules. -/
theorem Starts.of_ofGlobal {scope : Scope} {g : Global} {init : Initializer}
    (h : Initializer.ofGlobal scope g = .ok init) : Starts scope g init := by
  unfold Initializer.ofGlobal at h
  split at h
  · rename_i name hname
    obtain ⟨i, hi, h⟩ := ok_of_bind h
    split at h
    · rename_i hlt
      cases h
      exact .copy hname (Scope.global_eq_ok.1 hi) hlt
    · cases h
  · split at h
    · cases h
    · rename_i v hv
      split at h
      · rename_i hkind
        cases h
        exact .value (.of_eval hv) hkind
      · cases h

/-- **A constant of the right kind** is what a global is made to start as. -/
theorem Initializer.ofGlobal_of_eval (scope : Scope) {g : Global} {v : Value} (hv : eval g.init = .ok v)
    (hkind : v.kind = g.width.kind) : ofGlobal scope g = .ok (.value v) := by
  unfold ofGlobal
  split
  · rename_i name hname
    rw [hname] at hv
    cases hv
  · rw [hv]
    exact if_pos hkind

end WasmLowering
