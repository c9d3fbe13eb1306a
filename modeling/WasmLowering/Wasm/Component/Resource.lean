/-
# Resources within types

Which resources a type refers to, and what becomes of a type when resources are
replaced by others.  A replaced type stands at a new place only if something in it
changed, and the same type is replaced by the same one throughout.

Types refer to types that were there before them, so following references ends;
how far to follow them is counted.
-/

import WasmLowering.Wasm.Component.Type

namespace WasmLowering
namespace Wasm

namespace Registry

/-- The resources that a type of values refers to, following references at most `depth` times. -/
def valueResources (r : Registry) : (depth : Nat) → ValueType → List Nat
  | _, .primitive _ | 0, _ => []
  | depth + 1, .defined place =>
    let shape := r.shape place
    (shape.resource?.map ResourceType.resource).toList
      ++ shape.values.flatMap (r.valueResources depth)

/-- The resources that a type of functions refers to. -/
def functionResources (r : Registry) (depth place : Nat) : List Nat :=
  let f := r.function place
  (f.params.map Prod.snd ++ f.result.toList).flatMap (r.valueResources depth)

/-- The resources that a type refers to and does not bring along, given those of the parts in it. -/
def typeResources (r : Registry) (depth : Nat) (ofPart : PartType → List Nat) : AnyType → List Nat
  | .resource t => [t.resource]
  | .value place => r.valueResources depth (.defined place)
  | .function place => r.functionResources depth place
  | .inst place =>
    let i := r.inst place
    (i.exports.flatMap fun e => ofPart e.2).filter (!i.defined.contains ·)
  | .component place =>
    let c := r.component place
    ((c.imports ++ c.exports).flatMap fun e => ofPart e.2).filter
      fun n => !(c.imported ++ c.defined).any (·.1 == n)

/-- The resources that the type of a part refers to and does not bring along. -/
def partResources (r : Registry) : (depth : Nat) → PartType → List Nat
  | 0, _ | _, .module _ => []
  | depth + 1, .function place => r.functionResources depth place
  | depth + 1, .type referenced _ => r.typeResources depth (r.partResources depth) referenced
  | depth + 1, .inst place => r.typeResources depth (r.partResources depth) (.inst place)
  | depth + 1, .component place => r.typeResources depth (r.partResources depth) (.component place)

/-- The resources that a type refers to and does not bring along. -/
def freeResources (r : Registry) (t : AnyType) : List Nat :=
  r.typeResources r.depth (r.partResources r.depth) t

/-- The resources that parts refer to and do not bring along. -/
def partsResources (r : Registry) (parts : List (String × PartType)) : List Nat :=
  parts.flatMap fun p => r.partResources r.depth p.2

end Registry

/-- What is replaced: resources by resources, and the types that were replaced so far. -/
structure Replacement where
  registry : Registry
  resources : List (Nat × Nat)
  done : List (AnyType × AnyType)
  deriving DecidableEq, Repr

/-- A computation that replaces types. -/
abbrev Replacing := StateM Replacement

namespace Replacing

/-- The resource that a resource is replaced by. -/
def resource (n : Nat) : Replacing Nat := return ((← get).resources.lookup n).getD n

/-- A resource under its name, replaced. -/
def resourceType (t : ResourceType) : Replacing ResourceType :=
  return { t with resource := ← resource t.resource }

/-- Where resources are found, once they are replaced. -/
def paths (ps : ResourcePaths) : Replacing ResourcePaths :=
  ps.mapM fun p => return (← resource p.1, p.2)

/-- Adds to the registry. -/
def add (f : Registry → Registry × Nat) : Replacing Nat := do
  let s ← get
  let (registry, place) := f s.registry
  set { s with registry }
  return place

/-- What a type is replaced by, found out at most once. -/
def once (t : AnyType) (find : Replacing AnyType) : Replacing AnyType := do
  match (← get).done.lookup t with
  | some t' => return t'
  | none =>
    let t' ← find
    modify fun s => { s with done := (t, t') :: s.done }
    return t'

/-- The place of a type of values. -/
def valuePlace : AnyType → Nat
  | .value place | .function place | .inst place | .component place => place
  | .resource t => t.resource

/-- The type of a value, replaced. -/
def valueType : (depth : Nat) → ValueType → Replacing ValueType
  | 0, t | _, t@(.primitive _) => return t
  | depth + 1, .defined place => do
    let t ← once (.value place) do
      let r := (← get).registry
      let shape ← (r.shape place).mapM (valueType depth) resourceType
      if shape = r.shape place then return .value place
      return .value (← add fun r' => r'.addValue ⟨shape, r.valueWeight (.defined place)⟩)
    return .defined (valuePlace t)

/-- A type of functions, replaced. -/
def function (depth place : Nat) : Replacing Nat := do
  let t ← once (.function place) do
    let f := (← get).registry.function place
    let params ← f.params.mapM fun p => return (p.1, ← valueType depth p.2)
    let result ← f.result.mapM (valueType depth)
    if params = f.params ∧ result = f.result then return .function place
    return .function (← add fun r => r.addFunction { f with params, result })
  return valuePlace t

/-- Parts under names, replaced. -/
def parts (part : PartType → Replacing PartType) (ps : List (String × PartType)) :
    Replacing (List (String × PartType)) :=
  ps.mapM fun p => return (p.1, ← part p.2)

/-- A type of instances, replaced. -/
def inst (part : PartType → Replacing PartType) (place : Nat) : Replacing Nat := do
  let t ← once (.inst place) do
    let i := (← get).registry.inst place
    let exports ← parts part i.exports
    let explicit ← paths i.explicit
    if exports = i.exports ∧ explicit = i.explicit then return .inst place
    return .inst (← add fun r => r.addInstance { i with exports, explicit })
  return valuePlace t

/-- A type of components, replaced. -/
def component (part : PartType → Replacing PartType) (place : Nat) : Replacing Nat := do
  let t ← once (.component place) do
    let c := (← get).registry.component place
    let imports ← parts part c.imports
    let exports ← parts part c.exports
    let explicit ← paths c.explicit
    if imports = c.imports ∧ exports = c.exports ∧ explicit = c.explicit then
      return .component place
    return .component (← add fun r => r.addComponent { c with imports, exports, explicit })
  return valuePlace t

/-- A type, replaced, given how parts are. -/
def anyType (depth : Nat) (part : PartType → Replacing PartType) : AnyType → Replacing AnyType
  | .resource t => return .resource (← resourceType t)
  | .value place => do
    match ← valueType depth (.defined place) with
    | .defined place => return .value place
    | .primitive _ => return .value place
  | .function place => return .function (← function depth place)
  | .inst place => return .inst (← inst part place)
  | .component place => return .component (← component part place)

/-- The type of a part, replaced. -/
def part : (depth : Nat) → PartType → Replacing PartType
  | 0, t | _, t@(.module _) => return t
  | depth + 1, .function place => return .function (← function depth place)
  | depth + 1, .type referenced created => do
    let referenced' ← anyType depth (part depth) referenced
    let created' ←
      if referenced = created then pure referenced' else anyType depth (part depth) created
    return .type referenced' created'
  | depth + 1, .inst place => return .inst (← inst (part depth) place)
  | depth + 1, .component place => return .component (← component (part depth) place)

end Replacing

namespace Registry

/-- Parts with resources replaced by others, and the registry with the types that came of it. -/
def replaceResources (r : Registry) (resources : List (Nat × Nat)) (parts : List (String × PartType)) :
    List (String × PartType) × Registry :=
  let (parts, s) := (Replacing.parts (Replacing.part r.depth) parts).run ⟨r, resources, []⟩
  (parts, s.registry)

end Registry

end Wasm
end WasmLowering
