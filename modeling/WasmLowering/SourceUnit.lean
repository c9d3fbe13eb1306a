/-
# Source units

`CompilationUnit`, `Decl`, `FunctionDecl` and `GlobalDecl`.

A unit is a named list of declarations.  Functions and globals share one
namespace; a type declaration only reserves a name for the front end.
-/

import WasmLowering.Expr

namespace WasmLowering

/-- A function: one body over arguments and declared locals, with at most one result. -/
structure Function where
  name : String
  isPublic : Bool
  args : List Width
  locals : List Width
  results : List Width
  body : Expr
  deriving Repr, Inhabited

/-- An immutable global with a constant initializer. -/
structure Global where
  name : String
  isPublic : Bool
  width : Width
  init : Expr
  deriving Repr, Inhabited

/-- A declaration of a unit. -/
inductive Decl where
  | function (f : Function)
  | global (g : Global)
  | type (name : String)
  deriving Repr, Inhabited

namespace Decl

/-- The declared name. -/
def name : Decl → String
  | function f => f.name
  | global g => g.name
  | type n => n

/-- Whether other units may import the declaration; types are never imported. -/
def isPublic : Decl → Bool
  | function f => f.isPublic
  | global g => g.isPublic
  | type _ => false

/-- Whether the declaration takes its name in the namespace of functions and globals. -/
def isSymbol : Decl → Bool
  | type _ => false
  | _ => true

/-- The function that is declared, if it is one. -/
def function? : Decl → Option Function
  | function f => some f
  | _ => none

/-- The global that is declared, if it is one. -/
def global? : Decl → Option Global
  | global g => some g
  | _ => none

end Decl

/-- A unit of compilation: the declarations that become one module. -/
structure SourceUnit where
  name : String
  decls : List Decl
  deriving Repr, Inhabited

namespace SourceUnit

/-- The unit's functions, in declaration order. -/
def functions (u : SourceUnit) : List Function :=
  u.decls.filterMap Decl.function?

/-- The unit's globals, in declaration order. -/
def globals (u : SourceUnit) : List Global :=
  u.decls.filterMap Decl.global?

end SourceUnit

end WasmLowering
