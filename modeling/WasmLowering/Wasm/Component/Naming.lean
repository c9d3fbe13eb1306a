/-
# What may be named

A type that is imported or exported refers only to types that are imported or
exported before it, and so does a function.  Records, variants, flags,
enumerations and resources need names of their own; other types need only what
they refer to named.

The name of a function may say that it goes with a resource, and then it does:

| name             | the function                                          |
|------------------|-------------------------------------------------------|
| `[constructor]r` | gives a handle of `r`, for good                       |
| `[method]r.f`    | takes a handle of `r`, lent, as its first parameter `self` |
| `[static]r.f`    | is any                                                |
-/

import WasmLowering.Wasm.Component.Context

namespace WasmLowering
namespace Wasm

namespace Registry

/-- Whether the types that a type of values refers to are named, following references at most `depth`
times. -/
def isNamedValue (r : Registry) (named : List AnyType) : (depth : Nat) → ValueType → Bool
  | _, .primitive _ | 0, _ => true
  | depth + 1, .defined place =>
    let shape := r.shape place
    (shape.isAnonymous || named.contains (.value place))
      && shape.resource?.all (named.contains <| .resource ·)
      && (!shape.isAnonymous || shape.values.all (r.isNamedValue named depth))

/-- Whether the types that the definition of a type of values refers to are named. -/
def isNamedShape (r : Registry) (named : List AnyType) (place : Nat) : Bool :=
  let shape := r.shape place
  shape.resource?.all (named.contains <| .resource ·)
    && shape.values.all (r.isNamedValue named r.depth)

/-- Whether the types that a type of functions refers to are named. -/
def isNamedFunction (r : Registry) (named : List AnyType) (place : Nat) : Bool :=
  let f := r.function place
  (f.params.map Prod.snd ++ f.result.toList).all (r.isNamedValue named r.depth)

/-- Whether the types that a type refers to are named. -/
def isNamedType (r : Registry) (named : List AnyType) : (depth : Nat) → AnyType → Bool
  | _, .resource _ | _, .component _ | 0, _ => true
  | _, .value place => r.isNamedShape named place
  | _, .function place => r.isNamedFunction named place
  | depth + 1, .inst place =>
    (r.inst place).exports.all fun
      | (_, .function f) => r.isNamedFunction named f
      | (_, .type _ created) => r.isNamedType named depth created
      | (_, .inst i) => r.isNamedType named depth (.inst i)
      | _ => true

end Registry

namespace ComponentContext

/-- Takes note of a type that is imported or exported; an imported one may also be exported. -/
def noteType (ctx : ComponentContext) (side : Side) (t : AnyType) : ComponentContext :=
  let note (list : PartList) : PartList := { list with types := t :: list.types }
  match side with
  | .needed => { ctx with imports := note ctx.imports, exports := note ctx.exports }
  | .offered => { ctx with exports := note ctx.exports }

/-- Takes note of the types that a part brings, if all that it refers to is named, following references
at most `depth` times. -/
def noteTypes? (r : Registry) (side : Side) :
    (depth : Nat) → PartType → ComponentContext → Option ComponentContext
  | _, .module _, ctx | _, .component _, ctx | 0, _, ctx => some ctx
  | _, .function place, ctx =>
    if r.isNamedFunction (ctx.side side).types place then some ctx else none
  | _, .type referenced created, ctx =>
    if r.isNamedType (ctx.side side).types r.depth referenced then some (ctx.noteType side created)
    else none
  | depth + 1, .inst place, ctx =>
    (r.inst place).exports.foldlM (fun ctx e => noteTypes? r side depth e.2 ctx) ctx

/-- Takes note of the name of a resource. -/
def noteResource (ctx : ComponentContext) (side : Side) (name : String) :
    PartType → ComponentContext
  | .type _ (.resource t) =>
    let list := ctx.side side
    ctx.setSide side { list with resources := (t, name) :: list.resources }
  | _ => ctx

/-- Takes note of what a part brings under a name; all that it refers to is named.  The types of an
instance are free to refer to others. -/
def note (ctx : ComponentContext) (r : Registry) (side : Side) (name : String) (t : PartType) :
    Except Violation ComponentContext :=
  let ctx := ctx.noteResource side name t
  if ctx.scope = .instanceType then .ok ctx
  else (noteTypes? r side r.depth t ctx).elim (.error (.part (.unnamedType t.sort side))) .ok

end ComponentContext

namespace PartList

/-- Checks that a resource has a name. -/
def checkResource (list : PartList) (t : ResourceType) (name : String) : Except MemberFault Unit :=
  match list.resources.lookup t with
  | none => .error .unnamedResource
  | some expected => if name = expected then .ok () else .error (.otherResource expected)

/-- The resource that a constructor gives a handle of: for good, perhaps as the outcome of a result. -/
def constructed? (r : Registry) (t : ValueType) : Option ResourceType :=
  match r.shapeOf t with
  | .own resource => some resource
  | .result (some ok) _ =>
    match r.shapeOf ok with
    | .own resource => some resource
    | _ => none
  | _ => none

/-- Checks that a part of a type goes with a resource as its name says. -/
def checkMember (list : PartList) (r : Registry) (name : ExternName) (t : PartType) :
    Except MemberFault Unit := do
  let function : Except MemberFault FunctionType := match t with
    | .function place => .ok (r.function place)
    | _ => .error .notFunction
  match name with
  | .constructor resource =>
    let some result := (← function).result | throw .noResult
    let some found := constructed? r result | throw .notOwn
    list.checkResource found resource
  | .method resource _ =>
    let (self, type) :: _ := (← function).params | throw .noSelf
    unless self = "self" do throw .selfName
    match r.shapeOf type with
    | .borrow found => list.checkResource found resource
    | _ => throw .notBorrow
  | .static resource _ =>
    let _ ← function
    unless list.resources.any (·.2 == resource) do throw .unknownResource
  | _ => return ()

/-- Adds a part under a name to those at hand, and its weight to theirs. -/
def add (list : PartList) (r : Registry) (side : Side) (name : String) (t : PartType)
    (weight : Weight) : Except Violation (PartList × Weight) := do
  let parsed ← (ExternName.ofText name).mapError fun fault => .part (.badName side name fault)
  if side = .offered then
    if let .location _ := parsed then throw (.part (.badExportName name))
  (list.checkMember r parsed t).mapError fun fault => .part (.badMember side name fault)
  if let some previous := list.keys.lookup parsed.key then
    throw (.part (.duplicateName side name previous))
  let weight ← weight.add (r.weight t)
  return ({ list with parts := list.parts.push (name, t), keys := (parsed.key, name) :: list.keys },
    weight)

end PartList

end Wasm
end WasmLowering
