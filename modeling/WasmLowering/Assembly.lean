/-
# Assembly

`assemble_module` with `ModuleSummary` and `AssembledModule`.  The definitions
before `assemble` are its stages, in the order in which it runs them.

Assembling a unit gives one module and the link state for the next unit.

The module imports everything inherited.  It defines the unit's functions, each
with a type of its own appended to the inherited types, then the unit's globals
and one more global with the size of the string segment.  It exports the public
declarations and the segment's size.  The next unit inherits what this one did
and every function and global of this one.
-/

import WasmLowering.Config
import WasmLowering.Initializer
import WasmLowering.Lower.Function
import WasmLowering.Wasm.Encode

namespace WasmLowering

open Wasm

/-- `ModuleSummary`: what a loader needs to know of a module. -/
structure Summary where
  name : String
  imports : List Import
  exports : List String
  dataSize : Nat
  functionCount : Nat
  globalCount : Nat
  deriving DecidableEq, Repr

/-- `AssembledModule`: an assembled unit. -/
structure Assembled where
  name : String
  code : Module
  summary : Summary
  deriving Repr

/-- The bytes of an assembled unit. -/
def Assembled.bytes (a : Assembled) : Bytes := a.code.encode

namespace Assembly

/-- The check behind the types: there is one for each function of a scope. -/
def checkTypes (unit : String) (types : List FuncType) (scope : Scope) : Except Fault Unit :=
  if types.length = scope.functions.length then .ok ()
  else .error (.unitTypes unit types.length scope.functions.length)

/-- The loop over `unit.functions()`: the bodies of functions in order, over one segment. -/
def bodies (scope : Scope) (traced : Bool) : List Function → EStateM Fault Segment (List FuncBody)
  | [] => return []
  | f :: fs => do
    let body ← tryCatch (f.lower scope traced) fun fault => throw (.inFunction f.name fault)
    let rest ← bodies scope traced fs
    return body :: rest

/-- The bodies of a unit's functions and the segment of the strings they use. -/
def lowerFunctions (scope : Scope) (traced : Bool) (u : SourceUnit) :
    Except Fault (List FuncBody × Segment) :=
  match bodies scope traced u.functions .empty with
  | .ok bs segment => .ok (bs, segment)
  | .error fault _ => .error (.inUnit u.name fault)

/-- The constant expression of an initializer. -/
def constExpr : Initializer → ConstExpr
  | .value v => .const v
  | .imported index => .globalGet index

/-- The definition of a global. -/
def globalDef (scope : Scope) (g : Global) : Except Fault GlobalDef := do
  return { kind := g.width.kind, init := constExpr (← Initializer.ofGlobal scope g) }

/-- The loop over `unit.globals()`: the definitions of a unit's globals. -/
def globalDefs (scope : Scope) (u : SourceUnit) : Except Fault (List GlobalDef) :=
  (u.globals.mapM (globalDef scope)).mapError (.inUnit u.name)

/-- The global that holds the size of a segment. -/
def sizeGlobal (segment : Segment) : GlobalDef :=
  { kind := .i32, init := .const (.i32 (BitVec.ofNat 32 segment.size)) }

/-- The export of a declaration, if it is public. -/
def export? (scope : Scope) (d : Decl) : Except Fault (Option Export) :=
  if d.isPublic then
    match d with
    | .function f => do return some { name := f.name, sort := .function, index := ← scope.function f.name }
    | .global g => do return some { name := g.name, sort := .global, index := ← scope.global g.name }
    | .type _ => .ok none
  else .ok none

/-- The first loop over `unit.decls`, the exports of a unit: its public declarations, then the size of its
segment. -/
def exports (scope : Scope) (u : SourceUnit) : Except Fault (List Export) := do
  let own ← u.decls.mapM (export? scope)
  return own.reduceOption
    ++ [{ name := Loader.dataSize, sort := .global, index := scope.globals.length }]

/-- The last loop over `unit.decls`, with `next_type_index`: the imports that later units get from declarations;
functions are typed from `type` on. -/
def declImports (owner : String) : (type : Nat) → List Decl → List Import
  | _, [] => []
  | type, .function f :: ds =>
    { owner, name := f.name, entity := .function type, exported := f.isPublic }
      :: declImports owner (type + 1) ds
  | type, .global g :: ds =>
    { owner, name := g.name, entity := .global g.width.kind, exported := g.isPublic }
      :: declImports owner type ds
  | type, .type _ :: ds => declImports owner type ds

end Assembly

/-- `assemble_module`: the module of a unit and the link state after it. -/
def assemble (config : Config) (state : LinkState) (u : SourceUnit) :
    Except Fault (Assembled × LinkState) := do
  let scope ← Scope.ofUnit state u
  let types := state.types ++ u.functions.map Function.type
  Assembly.checkTypes u.name types scope
  let (bodies, segment) ← Assembly.lowerFunctions scope config.traced u
  let globals ← Assembly.globalDefs scope u
  let exports ← Assembly.exports scope u
  let code : Module :=
    { types
      imports := state.imports
      functions := List.range' scope.importedFunctions u.functions.length
      globals := globals ++ [Assembly.sizeGlobal segment]
      exports
      bodies
      data := segment.bytes }
  let summary : Summary :=
    { name := u.name
      imports := state.imports
      exports := exports.map Export.name
      dataSize := segment.size
      functionCount := scope.functions.length
      globalCount := scope.globals.length + 1 }
  let next : LinkState :=
    { types, imports := state.imports ++ Assembly.declImports u.name scope.importedFunctions u.decls }
  return ({ name := u.name, code, summary }, next)

end WasmLowering
