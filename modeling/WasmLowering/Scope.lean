/-
# Scopes

`Environment`: `Environment::new` builds a scope, and `function_index`,
`global_index` and `function_returns_value` read it.

A scope gives each name its index.  Functions and globals are numbered apart,
each with the imported ones first and the unit's own after them, in order.  A
name stands for what was declared last under it, so a declaration hides every
earlier one of the same name; within one unit a name is declared once.
-/

import WasmLowering.Fault
import WasmLowering.LinkState
import WasmLowering.SourceUnit

namespace WasmLowering

/-- The index of the last item with a property. -/
def lastIdx? {α : Type} (p : α → Bool) : List α → Option Nat
  | [] => none
  | a :: as =>
    match lastIdx? p as with
    | some i => some (i + 1)
    | none => if p a then some 0 else none

/-- A function as its callers see it. -/
structure Callable where
  name : String
  hasResult : Bool
  deriving DecidableEq, Repr

/-- The functions and globals that a unit can name, in index order. -/
structure Scope where
  functions : List Callable
  globals : List String
  importedFunctions : Nat
  importedGlobals : Nat
  deriving DecidableEq, Repr

namespace Scope

/-- The scope without names. -/
def empty : Scope := ⟨[], [], 0, 0⟩

/-- Adds a function under the next index. -/
def addFunction (s : Scope) (name : String) (hasResult : Bool) : Scope :=
  { s with functions := s.functions ++ [⟨name, hasResult⟩] }

/-- Adds a global under the next index. -/
def addGlobal (s : Scope) (name : String) : Scope :=
  { s with globals := s.globals ++ [name] }

/-- The first loop of `Environment::new`: adds imports in order.  Imported function `i` has type `i`, and the
type is known. -/
def addImports (unit : String) (types : List FuncType) : Scope → List Import → Except Fault Scope
  | s, [] => .ok s
  | s, i :: is =>
    match i.entity with
    | .function type =>
      if type ≠ s.functions.length then
        .error (.importMisaligned unit i.owner i.name type s.functions.length)
      else match types[type]? with
        | none => .error (.importUntyped unit i.owner i.name type types.length)
        | some t => addImports unit types (s.addFunction i.name (!t.results.isEmpty)) is
    | .global _ => addImports unit types (s.addGlobal i.name) is
    | .memory _ => addImports unit types s is

/-- Adds one declaration of a unit. -/
def addDecl (s : Scope) : Decl → Scope
  | .function f => s.addFunction f.name (!f.results.isEmpty)
  | .global g => s.addGlobal g.name
  | .type _ => s

/-- The second loop of `Environment::new`: adds a unit's declarations in order; `seen` are the names that the
unit has taken so far. -/
def addDecls (unit : String) : (seen : List String) → Scope → List Decl → Except Fault Scope
  | _, s, [] => .ok s
  | seen, s, d :: ds =>
    if d.isPublic && d.name == Loader.dataSize then .error (.reservedName d.name unit)
    else if d.isSymbol && seen.contains d.name then .error (.duplicateName d.name unit)
    else addDecls unit (if d.isSymbol then d.name :: seen else seen) (s.addDecl d) ds

/-- Marks everything in a scope as imported. -/
def sealImports (s : Scope) : Scope :=
  { s with importedFunctions := s.functions.length, importedGlobals := s.globals.length }

/-- `Environment::new`, the scope of a unit: what it inherits, then what it declares. -/
def ofUnit (state : LinkState) (unit : SourceUnit) : Except Fault Scope := do
  let imported ← addImports unit.name state.types empty state.imports
  if state.types.length ≠ imported.functions.length then
    throw (.typeCount unit.name state.types.length imported.functions.length)
  addDecls unit.name [] imported.sealImports unit.decls

/-- The index of a function, if the name is bound. -/
def function? (s : Scope) (name : String) : Option Nat :=
  lastIdx? (fun c => c.name == name) s.functions

/-- The index of a global, if the name is bound. -/
def global? (s : Scope) (name : String) : Option Nat :=
  lastIdx? (fun g => g == name) s.globals

/-- `function_index`: the index of a function. -/
def function (s : Scope) (name : String) : Except Fault Nat :=
  (s.function? name).elim (.error (.unbound .function name)) .ok

/-- `global_index`: the index of a global. -/
def global (s : Scope) (name : String) : Except Fault Nat :=
  (s.global? name).elim (.error (.unbound .global name)) .ok

/-- `function_returns_value`: whether calling the function with an index leaves a value. -/
def hasResult (s : Scope) (index : Nat) : Bool :=
  (s.functions[index]?).any Callable.hasResult

end Scope

end WasmLowering
