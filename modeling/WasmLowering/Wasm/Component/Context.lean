/-
# Contexts of components

What the parts of a component, or the declarations of a type of components or
instances, have given so far: index spaces of parts, what is imported and
exported, and which types and resources have names.

| limit                                    | number    |
|------------------------------------------|-----------|
| modules, components, instances           | `1000`    |
| tables, and memories, of modules         | `100`     |
| types, functions, exports, other items   | `1000000` |
-/

import WasmLowering.Wasm.Component.Match
import WasmLowering.Wasm.Component.Reader

namespace WasmLowering
namespace Wasm

/-- A type of modules, or one that modules define. -/
inductive CoreType where
  | plain (number : Nat)
  | module (type : ModuleType)
  deriving DecidableEq, Repr

/-- What declarations stand in. -/
inductive PartScope where
  | component
  | componentType
  | instanceType
  deriving DecidableEq, Repr

/-- What is imported, or what is exported. -/
structure PartList where
  /-- The parts under their names, in order. -/
  parts : Array (String × PartType)
  /-- The keys of the names, each with the name. -/
  keys : List (String × String)
  /-- The types that may be referred to here. -/
  types : List AnyType
  /-- The names of resources, the last one first. -/
  resources : List (ResourceType × String)
  deriving DecidableEq, Repr

/-- Nothing is imported or exported. -/
def PartList.empty : PartList := ⟨#[], [], [], []⟩

/-- What the parts of a component have given so far. -/
structure ComponentContext where
  scope : PartScope
  coreTypes : Array CoreType
  modules : Array ModuleType
  /-- The exports of the instances of modules. -/
  coreInstances : Array (List (String × ItemType))
  /-- The items of modules that have names. -/
  items : Array ItemType
  types : Array AnyType
  /-- The types of the functions, by their places. -/
  functions : Array Nat
  /-- The types of the instances, by their places. -/
  instances : Array Nat
  /-- The types of the components, by their places. -/
  components : Array Nat
  imports : PartList
  exports : PartList
  weight : Weight
  /-- Where resources are imported. -/
  imported : ResourcePaths
  /-- The resources that come about here, each with the type of the words that stand for it if that is
  known here. -/
  defined : List (Nat × Option ValType)
  /-- Where resources are exported. -/
  explicit : ResourcePaths
  deriving DecidableEq, Repr

namespace ComponentContext

/-- Nothing is given. -/
def empty (scope : PartScope) : ComponentContext :=
  { scope, coreTypes := #[], modules := #[], coreInstances := #[], items := #[], types := #[],
    functions := #[], instances := #[], components := #[], imports := .empty, exports := .empty,
    weight := .one, imported := [], defined := [], explicit := [] }

/-- The most modules, components and instances. -/
def partLimit : Nat := 1000

/-- What has an index, or the reason that there is nothing. -/
def get {α : Type} (space : Array α) (index : Nat) (what spaceName : String) : Except Violation α :=
  (space[index]?).elim (.error (.unknownPart what index spaceName)) .ok

/-- The items of a sort. -/
def itemsOf (ctx : ComponentContext) (sort : ItemSort) : Array ItemType :=
  ctx.items.filter (·.sort == sort)

/-- The item of a sort with an index. -/
def item (ctx : ComponentContext) (sort : ItemSort) (index : Nat) : Except Violation ItemType :=
  let what := if sort = .function then "core function" else sort.text
  get (ctx.itemsOf sort) index what sort.text

/-- The signature of the function of a module with an index. -/
def coreSignature (ctx : ComponentContext) (types : TypeSpace) (index : Nat) :
    Except Violation (Nat × Signature) := do
  match ← ctx.item .function index with
  | .function n _ => return (n, (types.signature? n).getD ⟨[], []⟩)
  | _ => return (0, ⟨[], []⟩)

/-- The type for modules with an index. -/
def coreType (ctx : ComponentContext) (index : Nat) : Except Violation CoreType :=
  get ctx.coreTypes index "type" "type"

/-- The type with an index. -/
def type (ctx : ComponentContext) (index : Nat) : Except Violation AnyType :=
  get ctx.types index "type" "type"

/-- The module with an index. -/
def module (ctx : ComponentContext) (index : Nat) : Except Violation ModuleType :=
  get ctx.modules index "module" "module"

/-- The function with an index. -/
def function (ctx : ComponentContext) (index : Nat) : Except Violation Nat :=
  get ctx.functions index "function" "function"

/-- The instance with an index. -/
def inst (ctx : ComponentContext) (index : Nat) : Except Violation Nat :=
  get ctx.instances index "instance" "instance"

/-- The component with an index. -/
def component (ctx : ComponentContext) (index : Nat) : Except Violation Nat :=
  get ctx.components index "component" "component"

/-- The instance of a module with an index. -/
def coreInst (ctx : ComponentContext) (index : Nat) : Except Violation (List (String × ItemType)) :=
  get ctx.coreInstances index "core instance" "instance"

/-- The type of values with an index. -/
def valueType (ctx : ComponentContext) (index : Nat) : Except Violation ValueType := do
  match ← ctx.type index with
  | .value place => return .defined place
  | _ => throw (.part (.notDefinedType index))

/-- The type of functions with an index. -/
def functionType (ctx : ComponentContext) (index : Nat) : Except Violation Nat := do
  match ← ctx.type index with
  | .function place => return place
  | _ => throw (.notFunctionType index)

/-- The resource with an index. -/
def resource (ctx : ComponentContext) (index : Nat) : Except Violation ResourceType := do
  match ← ctx.type index with
  | .resource t => return t
  | _ => throw (.part (.notResource index))

/-- The type of the words that stand for the resource with an index, which comes about here. -/
def resourceRep (ctx : ComponentContext) (index : Nat) : Except Violation ValType := do
  let t ← ctx.resource index
  match ctx.defined.lookup t.resource with
  | some (some rep) => return rep
  | _ => throw (.part (.notLocalResource index))

/-- The number of functions, those of modules included. -/
def functionCount (ctx : ComponentContext) : Nat :=
  (ctx.itemsOf .function).size + ctx.functions.size

/-- The number of types, those for modules included. -/
def typeCount (ctx : ComponentContext) : Nat := ctx.coreTypes.size + ctx.types.size

/-- The number of instances, those of modules included. -/
def instanceCount (ctx : ComponentContext) : Nat := ctx.coreInstances.size + ctx.instances.size

/-- What is imported, or what is exported. -/
def side (ctx : ComponentContext) : Side → PartList
  | .needed => ctx.imports
  | .offered => ctx.exports

/-- Changes what is imported, or what is exported. -/
def setSide (ctx : ComponentContext) (side : Side) (list : PartList) : ComponentContext :=
  match side with
  | .needed => { ctx with imports := list }
  | .offered => { ctx with exports := list }

/-- The numbers of the types that modules define; a type of modules is none. -/
def typeSpace (ctx : ComponentContext) (types : TypeSpace) : TypeSpace :=
  { types with numbers := ctx.coreTypes.map fun
      | .plain n => n
      | .module _ => types.defs.size }

/-- Refuses the index of a type of modules. -/
def noModuleType (ctx : ComponentContext) (index : Nat) : Except Violation Nat :=
  match ctx.coreTypes[index]? with
  | some (.module _) => .error (.moduleAsType index)
  | _ => .ok index

/-- The component so many levels out; `outer` are the components from the innermost on. -/
def levelsOut (outer : List ComponentContext) (count : Nat) : Except Violation ComponentContext :=
  (outer[count]?).elim (.error (.outerCount count)) .ok

/-! ## Parts for modules -/

/-- Adds what is declared in a type of modules that stands in some components. -/
def declare (outer : List ComponentContext) (ctx : ModuleContext) :
    ModuleDecl → Except Violation ModuleContext
  | .types group => ctx.define group
  | .needs name t => ctx.importItem name t
  | .offers name t => do
    let t ← t.resolve ctx.types
    ModuleContext.checkCount "exports" ModuleContext.itemLimit (ctx.exports.length + 1)
    ctx.exportItem name t
  | .outerType count index => do
    let n ← match count with
      | 0 => ctx.types.number index
      | count + 1 => do
        match ← (← levelsOut outer count).coreType index with
        | .plain n => pure n
        | .module _ => throw .moduleTypeAlias
    ModuleContext.checkCount "types" ModuleContext.itemLimit (ctx.types.numbers.size + 1)
    return ctx.declare fun d =>
      { d with types := { d.types with numbers := d.types.numbers.push n } }

/-- Adds the definition of a type for modules to a component in others, and to the types that are
defined. -/
def define (ctx : ComponentContext) (outer : List ComponentContext) (types : TypeSpace) :
    CoreTypeDef → Except Violation (ComponentContext × TypeSpace)
  | .group group => do
    let group ← group.mapM (TypeDef.renumber ctx.noModuleType)
    let space ← (ctx.typeSpace types).define group
    let added := (space.numbers.extract ctx.coreTypes.size space.numbers.size).map CoreType.plain
    return ({ ctx with coreTypes := ctx.coreTypes ++ added }, space)
  | .module decls => do
    let m ← decls.foldlM (declare (ctx :: outer)) (.start types)
    return ({ ctx with coreTypes := ctx.coreTypes.push (.module (← m.type)) }, m.types)

/-- Adds an instance that a module is given, by the name that it imports from. -/
def give (ctx : ComponentContext) (given : List (String × List (String × ItemType))) :
    String × Nat → Except Violation (List (String × List (String × ItemType)))
  | (name, index) => do
    let exports ← ctx.coreInst index
    if given.any fun g => g.1 == name then throw (.duplicateArgument name)
    return given ++ [(name, exports)]

/-- Checks that an import of a module is given. -/
def checkImport (types : TypeSpace) (given : List (String × List (String × ItemType))) :
    ImportName × ItemType → Except Violation Unit
  | ((module, name), wanted) => do
    let some exports := given.lookup module | throw (.missingArgument module)
    let some found := exports.lookup name | throw (.missingArgumentItem module name)
    match found.mismatch? types wanted with
    | some mismatch => throw (.argumentMismatch module name mismatch)
    | none => return ()

/-- Adds an item under a name to items and the size of their types. -/
def bundle (ctx : ComponentContext) (types : TypeSpace) (s : List (String × ItemType) × Weight) :
    String × ItemSort × Nat → Except Violation (List (String × ItemType) × Weight)
  | (name, sort, index) => do
    let t ← ctx.item sort index
    let weight ← s.2.add ⟨t.size types, false⟩
    if s.1.any fun e => e.1 == name then throw (.duplicateInstanceExport name)
    return (s.1 ++ [(name, t)], weight)

/-- The exports of an instance of a module. -/
def exportsOf (ctx : ComponentContext) (types : TypeSpace) :
    CoreInstance → Except Violation (List (String × ItemType))
  | .instantiate module args => do
    let m ← ctx.module module
    let given ← args.foldlM ctx.give []
    m.imports.forM (checkImport types given)
    return m.exports
  | .bundle exports => do return (← exports.foldlM (ctx.bundle types) ([], .one)).1

/-- Adds an instance of a module. -/
def instantiate (ctx : ComponentContext) (types : TypeSpace) (i : CoreInstance) :
    Except Violation ComponentContext := do
  let exports ← ctx.exportsOf types i
  return { ctx with coreInstances := ctx.coreInstances.push exports }

/-- Adds an export of an instance of a module. -/
def nameCore (ctx : ComponentContext) (sort : ItemSort) (index : Nat) (name : String) :
    Except Violation ComponentContext := do
  let count := if sort = .function then ctx.functionCount else (ctx.itemsOf sort).size
  ModuleContext.checkCount sort.plural (ModuleContext.sortLimit sort) (count + 1)
  let exports ← ctx.coreInst index
  let some t := exports.lookup name | throw (.missingInstanceExport index name)
  unless t.sortText = sort.shortText do throw (.instanceExportSort index name sort)
  return { ctx with items := ctx.items.push t }

/-- Adds an item of a module. -/
def addItem (ctx : ComponentContext) (t : ItemType) : ComponentContext :=
  { ctx with items := ctx.items.push t }

end ComponentContext

end Wasm
end WasmLowering
