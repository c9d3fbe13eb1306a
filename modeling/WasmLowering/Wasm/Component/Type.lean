/-
# Types of parts

The parts of a component pass each other values, functions, instances and
components, and resources that are known by handles.  Their types are kept in a
registry and known by their places in it, so that a type that is given a name can
be told from one of the same shape.

| type      | is of                                              |
|-----------|----------------------------------------------------|
| value     | numbers, texts, and what is put together from them |
| function  | values to a value                                  |
| instance  | parts under names                                  |
| component | what is needed and what is offered, under names    |
| resource  | nothing but itself                                 |

A type weighs as much as it takes to write it out with all that it refers to, and
is refused if that is too much.
-/

import WasmLowering.Wasm.Component.Sort
import WasmLowering.Wasm.ModuleContext

namespace WasmLowering
namespace Wasm

/-- The shape of values, over references to types of values and to resources. -/
inductive ValueShape (ν ρ : Type) where
  | primitive (p : Primitive)
  | record (fields : List (String × ν))
  | variant (cases : List (String × Option ν))
  | list (element : ν)
  | tuple (items : List ν)
  | flags (names : List String)
  | enumeration (names : List String)
  | option (value : ν)
  | result (ok err : Option ν)
  /-- A handle that is passed on for good. -/
  | own (resource : ρ)
  /-- A handle that is lent for a call. -/
  | borrow (resource : ρ)
  deriving DecidableEq, Repr

namespace ValueShape

variable {ν ρ : Type}

/-- The name of a shape in messages. -/
def text : ValueShape ν ρ → String
  | primitive p => p.text
  | record _ => "record"
  | variant _ => "variant"
  | list _ => "list"
  | tuple _ => "tuple"
  | flags _ => "flags"
  | enumeration _ => "enum"
  | option _ => "option"
  | result .. => "result"
  | own _ => "own"
  | borrow _ => "borrow"

/-- The name of the sort of a shape that has a definition of its own. -/
def sortText : ValueShape ν ρ → String
  | primitive _ => "primitive"
  | shape => shape.text

/-- The types of values that a shape refers to. -/
def values : ValueShape ν ρ → List ν
  | record fields => fields.map Prod.snd
  | variant cases => cases.filterMap Prod.snd
  | list v | option v => [v]
  | tuple items => items
  | result ok err => ok.toList ++ err.toList
  | _ => []

/-- The resource that a handle refers to. -/
def resource? : ValueShape ν ρ → Option ρ
  | own r | borrow r => some r
  | _ => none

/-- Whether a type of this shape may be used without a name of its own. -/
def isAnonymous : ValueShape ν ρ → Bool
  | record _ | variant _ | flags _ | enumeration _ => false
  | _ => true

/-- Replaces what a shape refers to. -/
def mapM {m : Type → Type} [Monad m] {ν' ρ' : Type} (f : ν → m ν') (g : ρ → m ρ') :
    ValueShape ν ρ → m (ValueShape ν' ρ')
  | primitive p => return primitive p
  | record fields => return record (← fields.mapM fun x => return (x.1, ← f x.2))
  | variant cases => return variant (← cases.mapM fun x => return (x.1, ← x.2.mapM f))
  | list v => return list (← f v)
  | tuple items => return tuple (← items.mapM f)
  | flags names => return flags names
  | enumeration names => return enumeration names
  | option v => return option (← f v)
  | result ok err => return result (← ok.mapM f) (← err.mapM f)
  | own r => return own (← g r)
  | borrow r => return borrow (← g r)

end ValueShape

/-- A resource by a number of its own, under one of its names. -/
structure ResourceType where
  resource : Nat
  name : Nat
  deriving DecidableEq, Repr

/-- The type of a value: one that needs no definition, or a place in the registry. -/
inductive ValueType where
  | primitive (p : Primitive)
  | defined (place : Nat)
  deriving DecidableEq, Repr

/-- A type of any sort, by its place in the registry. -/
inductive AnyType where
  | resource (type : ResourceType)
  | value (place : Nat)
  | function (place : Nat)
  | inst (place : Nat)
  | component (place : Nat)
  deriving DecidableEq, Repr

/-- The name of the sort of a type. -/
def AnyType.text : AnyType → String
  | .resource _ => "resource"
  | .value _ => "defined type"
  | .function _ => "func"
  | .inst _ => "instance"
  | .component _ => "component"

/-- What an import or an export is. -/
inductive PartType where
  | module (type : ModuleType)
  | function (place : Nat)
  /-- A type, and the same type under the name that it is given. -/
  | type (referenced created : AnyType)
  | component (place : Nat)
  | inst (place : Nat)
  deriving DecidableEq, Repr

/-- The sort of a part. -/
def PartType.sort : PartType → PartSort
  | .module _ => .module
  | .function _ => .function
  | .type .. => .type
  | .component _ => .component
  | .inst _ => .inst

/-- How much a type takes to write out, and whether handles are lent within it. -/
structure Weight where
  size : Nat
  hasBorrow : Bool
  deriving DecidableEq, Repr

namespace Weight

/-- The weight of a type without parts. -/
def one : Weight := ⟨1, false⟩

/-- The weights of two types together, without a limit. -/
def join (a b : Weight) : Weight := ⟨a.size + b.size, a.hasBorrow || b.hasBorrow⟩

/-- The weights of two types together. -/
def add (a b : Weight) : Except Violation Weight :=
  let limit := ModuleContext.typeSizeLimit
  if limit ≤ a.size + b.size then .error (.typeSizeLimit limit) else .ok (a.join b)

end Weight

/-- A type of values. -/
structure ValueDef where
  shape : ValueShape ValueType ResourceType
  weight : Weight
  deriving DecidableEq, Repr

/-- A type of functions. -/
structure FunctionType where
  params : List (String × ValueType)
  result : Option ValueType
  weight : Weight
  deriving DecidableEq, Repr

/-- Where the resources of a type are exported or imported: positions among exports or imports, from the
outside in. -/
abbrev ResourcePaths := List (Nat × List Nat)

/-- A type of instances. -/
structure InstanceType where
  exports : List (String × PartType)
  weight : Weight
  /-- The resources that each instance has anew. -/
  defined : List Nat
  /-- Where resources are exported. -/
  explicit : ResourcePaths
  deriving DecidableEq, Repr

/-- A type of components. -/
structure ComponentType where
  imports : List (String × PartType)
  exports : List (String × PartType)
  weight : Weight
  /-- Where the resources are imported that the component needs. -/
  imported : ResourcePaths
  /-- The resources that each instance has anew, and where they are exported. -/
  defined : ResourcePaths
  /-- Where resources are exported. -/
  explicit : ResourcePaths
  deriving DecidableEq, Repr

/-- The types that are known by their places. -/
structure Registry where
  values : Array ValueDef
  functions : Array FunctionType
  instances : Array InstanceType
  components : Array ComponentType
  /-- The numbers of resources and of their names that are taken. -/
  resources : Nat
  names : Nat
  deriving DecidableEq, Repr

namespace Registry

/-- No types. -/
def empty : Registry := ⟨#[], #[], #[], #[], 0, 0⟩

/-- A number above the length of every chain of references between types. -/
def depth (r : Registry) : Nat :=
  r.values.size + r.functions.size + r.instances.size + r.components.size + 1

/-- The shape of a type of values. -/
def shape (r : Registry) (place : Nat) : ValueShape ValueType ResourceType :=
  ((r.values[place]?).map ValueDef.shape).getD (.primitive .bool)

/-- The shape of the values of a type. -/
def shapeOf (r : Registry) : ValueType → ValueShape ValueType ResourceType
  | .primitive p => .primitive p
  | .defined place => r.shape place

/-- The name of a type of values that is wanted. -/
def wantedText (r : Registry) : ValueType → String
  | .primitive p => p.text
  | .defined place => (r.shape place).sortText

/-- The type of functions at a place. -/
def function (r : Registry) (place : Nat) : FunctionType :=
  (r.functions[place]?).getD ⟨[], none, .one⟩

/-- The type of instances at a place. -/
def inst (r : Registry) (place : Nat) : InstanceType :=
  (r.instances[place]?).getD ⟨[], .one, [], []⟩

/-- The type of components at a place. -/
def component (r : Registry) (place : Nat) : ComponentType :=
  (r.components[place]?).getD ⟨[], [], .one, [], [], []⟩

/-- The weight of a type of values. -/
def valueWeight (r : Registry) : ValueType → Weight
  | .primitive _ => .one
  | .defined place => ((r.values[place]?).map ValueDef.weight).getD .one

/-- The weight of a type. -/
def typeWeight (r : Registry) : AnyType → Weight
  | .resource _ => .one
  | .value place => r.valueWeight (.defined place)
  | .function place => (r.function place).weight
  | .inst place => (r.inst place).weight
  | .component place => (r.component place).weight

/-- The weight of the type of a part. -/
def weight (r : Registry) : PartType → Weight
  | .module type => ⟨type.size, false⟩
  | .function place => (r.function place).weight
  | .type referenced _ => r.typeWeight referenced
  | .inst place => (r.inst place).weight
  | .component place => (r.component place).weight

/-- Adds a type of values. -/
def addValue (r : Registry) (d : ValueDef) : Registry × Nat :=
  ({ r with values := r.values.push d }, r.values.size)

/-- Adds a type of functions. -/
def addFunction (r : Registry) (f : FunctionType) : Registry × Nat :=
  ({ r with functions := r.functions.push f }, r.functions.size)

/-- Adds a type of instances. -/
def addInstance (r : Registry) (i : InstanceType) : Registry × Nat :=
  ({ r with instances := r.instances.push i }, r.instances.size)

/-- Adds a type of components. -/
def addComponent (r : Registry) (c : ComponentType) : Registry × Nat :=
  ({ r with components := r.components.push c }, r.components.size)

/-- A resource that is not there yet. -/
def freshResource (r : Registry) : Registry × ResourceType :=
  ({ r with resources := r.resources + 1, names := r.names + 1 }, ⟨r.resources, r.names⟩)

/-- The same type at a place of its own. -/
def renamed (r : Registry) : AnyType → Registry × AnyType
  | .resource t => ({ r with names := r.names + 1 }, .resource { t with name := r.names })
  | .value place =>
    let (r', p) := r.addValue ((r.values[place]?).getD ⟨.primitive .bool, .one⟩)
    (r', .value p)
  | .function place =>
    let (r', p) := r.addFunction (r.function place)
    (r', .function p)
  | .inst place =>
    let (r', p) := r.addInstance (r.inst place)
    (r', .inst p)
  | .component place =>
    let (r', p) := r.addComponent (r.component place)
    (r', .component p)

end Registry

end Wasm
end WasmLowering
