/-
# Putting components together

Each part of a component is checked against the parts before it and then added to
them.  Types of components and instances are put together in the same way from
what they declare, each in a context of its own.
-/

import WasmLowering.Wasm.Component.Boundary
import WasmLowering.Wasm.Component.Naming

namespace WasmLowering
namespace Wasm

/-- A component that is being put together. -/
structure PartAssembly where
  current : ComponentContext
  /-- The contexts around, innermost first. -/
  outer : List ComponentContext
  /-- The types that modules define. -/
  types : TypeSpace
  registry : Registry
  deriving DecidableEq, Repr

/-- A step in putting a component together. -/
abbrev Assembling := StateT PartAssembly (Except Violation)

namespace Assembling

open ModuleContext (checkCount)

/-- What the context at hand holds. -/
def ask {α : Type} (question : ComponentContext → Except Violation α) : Assembling α := do
  liftM (question (← get).current)

/-- Changes the context at hand. -/
def update (f : ComponentContext → ComponentContext) : Assembling Unit :=
  modify fun s => { s with current := f s.current }

/-- Changes the context at hand, if nothing is in the way. -/
def tryUpdate (f : ComponentContext → Except Violation ComponentContext) : Assembling Unit := do
  let current ← ask f
  modify fun s => { s with current }

/-- Adds to the registry. -/
def register {α : Type} (f : Registry → Registry × α) : Assembling α := do
  let s ← get
  let (registry, a) := f s.registry
  set { s with registry }
  return a

/-- Refuses a component for a cause. -/
def refuse {α : Type} (cause : PartViolation) : Assembling α := throw (.part cause)

/-- Refuses what does not hold. -/
def require (condition : Bool) (cause : PartViolation) : Assembling Unit := do
  unless condition do refuse cause

/-! ## Types of values and functions -/

/-- The type of a value, resolved. -/
def valueType : ValueRef → Assembling ValueType
  | .primitive p => do
    require (p != .errorContext) (.typeFeature "`error-context` requires" .errorContext)
    return .primitive p
  | .index i => ask (·.valueType i)

/-- A word that names a member of a type, which differs from those before it. -/
def word (what before : String) (previous : List String) (s : String) : Assembling Unit := do
  require (isLabel s) (.badWord what s)
  if let some p := previous.find? fun p => p.toLower = s.toLower then
    refuse (.duplicateWord what before s p)

/-- The types of values together with their weight, behind those at hand. -/
def weigh (weight : Weight) (t : ValueType) : Assembling Weight := do
  liftM (weight.add ((← get).registry.valueWeight t))

/-- The weight of a result, whose parts weigh at least as much as nothing at all. -/
def outcomeWeight (t : Option ValueType) : Assembling Weight := do
  return (t.map (← get).registry.valueWeight).getD .one

/-- The members of a type with types, in order, and their weight.  The name of a member is checked,
then its type, and then that no member before has its name. -/
def members {α β : Type} (what before : String) (resolve : α → Assembling β)
    (values : β → List ValueType) :
    List (String × α) → List (String × β) × Weight → Assembling (List (String × β) × Weight)
  | [], s => return (s.1.reverse, s.2)
  | (name, t) :: rest, (done, weight) => do
    word what before [] name
    let t ← resolve t
    word what before (done.map Prod.fst) name
    let weight ← (values t).foldlM weigh weight
    members what before resolve values rest ((name, t) :: done, weight)

/-- Checks names that a type lists. -/
def listed (what before : String) : List String → List String → Assembling Unit
  | [], _ => return ()
  | name :: rest, done => do
    word what before done name
    listed what before rest (done ++ [name])

/-- A variant, resolved, and its weight.  A case refines only a case before it. -/
def variant (cases : List (String × Option ValueRef × Option Nat)) : Assembling ValueDef := do
  require (!cases.isEmpty) .noCases
  let marked := cases.zipIdx.map fun ((name, t, refined), i) => (name, t, refined.all (· < i))
  let (cases, weight) ← members "variant case" "case" (fun (t, isInOrder) => do
      require isInOrder .laterCase
      t.mapM valueType) Option.toList marked ([], .one)
  return ⟨.variant cases, weight⟩

/-- The most flags of a type. -/
def flagLimit : Nat := 32

/-- A shape of values, resolved, and its weight. -/
def shape : ValueShape ValueRef Nat → Assembling ValueDef
  | .primitive p => do
    let _ ← valueType (.primitive p)
    return ⟨.primitive p, .one⟩
  | .record fields => do
    require (!fields.isEmpty) .noFields
    let (fields, weight) ← members "record field" "field" valueType (fun t => [t]) fields ([], .one)
    return ⟨.record fields, weight⟩
  | .variant cases => variant (cases.map fun c => (c.1, c.2, none))
  | .list t => do
    let t ← valueType t
    return ⟨.list t, (← get).registry.valueWeight t⟩
  | .tuple items => do
    require (!items.isEmpty) .noItems
    let (items, weight) ← items.foldlM (fun (done, weight) t => do
      let t ← valueType t
      return (done ++ [t], ← weigh weight t)) ([], Weight.one)
    return ⟨.tuple items, weight⟩
  | .flags names => do
    require (!names.isEmpty) .noFlags
    require (names.length ≤ flagLimit) .tooManyFlags
    listed "flag" "flag" names []
    return ⟨.flags names, .one⟩
  | .enumeration names => do
    require (!names.isEmpty) .noTags
    listed "enum tag" "tag" names []
    return ⟨.enumeration names, .one⟩
  | .option t => do
    let t ← valueType t
    return ⟨.option t, (← get).registry.valueWeight t⟩
  | .result ok err => do
    let ok ← ok.mapM valueType
    let err ← err.mapM valueType
    return ⟨.result ok err, (← outcomeWeight ok).join (← outcomeWeight err)⟩
  | .own i => return ⟨.own (← ask (·.resource i)), .one⟩
  | .borrow i => return ⟨.borrow (← ask (·.resource i)), ⟨1, true⟩⟩

/-- The parameters of a function, in order, and their weight.  A name is checked before the type. -/
def parameters : List (String × ValueRef) → List (String × ValueType) × Weight →
    Assembling (List (String × ValueType) × Weight)
  | [], s => return (s.1.reverse, s.2)
  | (name, t) :: rest, (done, weight) => do
    word "function parameter" "parameter" (done.map Prod.fst) name
    let t ← valueType t
    parameters rest ((name, t) :: done, ← weigh weight t)

/-- A type of functions, resolved. -/
def functionType (params : List (String × ValueRef)) (result : Option ValueRef) :
    Assembling FunctionType := do
  let (params, weight) ← parameters params ([], .one)
  let result ← result.mapM valueType
  match result with
  | none => return ⟨params, none, weight⟩
  | some t =>
    require (!((← get).registry.valueWeight t).hasBorrow) .borrowInResult
    return ⟨params, result, ← weigh weight t⟩

/-- A resource that comes about here. -/
def newResource (rep : ValType) (destructor : Option Nat) : Assembling AnyType := do
  let s ← get
  require (s.current.scope = .component) .resourceInType
  require (rep = .i32) .resourceRep
  destructor.forM fun f => do
    let (_, signature) ← ask (·.coreSignature s.types f)
    require (signature = ⟨[rep], []⟩) (.destructorSignature f)
  let t ← register Registry.freshResource
  update fun ctx => { ctx with defined := ctx.defined ++ [(t.resource, some rep)] }
  return .resource t

/-- A type that declares nothing. -/
def plainType : TypeBody → Assembling AnyType
  | .value written => do
    let d ← shape written
    return .value (← register (·.addValue d))
  | .variant cases => do
    let d ← variant cases
    return .value (← register (·.addValue d))
  | .function isAsync params result => do
    require (!isAsync) (.typeFeature "async component functions require" .async)
    let f ← functionType params result
    return .function (← register (·.addFunction f))
  | .resource rep destructor => newResource rep destructor
  | .unsupported types feature => refuse (.typeFeature types feature)

/-- Adds a type. -/
def addType (t : AnyType) : Assembling Unit :=
  update fun ctx => { ctx with types := ctx.types.push t }

/-- Adds a type that a type of components or instances declares. -/
def declareType (t : AnyType) : Assembling Unit := do
  checkCount "types" ModuleContext.itemLimit ((← get).current.typeCount + 1)
  addType t

/-- Adds a type for modules. -/
def coreType (d : CoreTypeDef) : Assembling Unit := do
  let s ← get
  let (current, types) ← liftM (s.current.define s.outer s.types d)
  set { s with current, types }

/-! ## Imports and exports -/

/-- The type of an import or an export, resolved. -/
def partType : PartRef → Assembling PartType
  | .module i => do
    match ← ask (·.coreType i) with
    | .module type => return .module type
    | .plain _ => refuse (.notModuleType i)
  | .function i => return .function (← ask (·.functionType i))
  | .value _ => throw .valuesDisabled
  | .equalType i => do
    let referenced ← ask (·.type i)
    return .type referenced (← register (·.renamed referenced))
  | .anyResource => do
    let t ← register Registry.freshResource
    return .type (.resource t) (.resource t)
  | .component i => do
    match ← ask (·.type i) with
    | .component place => return .component place
    | _ => refuse (.notComponentType i)
  | .inst i => do
    match ← ask (·.type i) with
    | .inst place => return .inst place
    | _ => refuse (.notInstanceType i)

/-- Resources that are not there yet, one for each. -/
def freshResources (old : List Nat) : Assembling (List (Nat × Nat)) :=
  old.mapM fun n => return (n, (← register Registry.freshResource).resource)

/-- The type of an instance whose own resources are replaced by new ones, and those. -/
def freshInstance (place : Nat) : Assembling (Nat × List (Nat × Nat)) := do
  let i := (← get).registry.inst place
  if i.defined.isEmpty then return (place, [])
  let fresh ← freshResources i.defined
  let exports ← register fun r =>
    let (exports, r) := r.replaceResources fresh i.exports
    (r, exports)
  let explicit := i.explicit.map fun p => ((fresh.lookup p.1).getD p.1, p.2)
  return (← register (·.addInstance { i with exports, explicit, defined := [] }), fresh)

/-- Sets the path of a resource, which may have one. -/
def setPath (paths : ResourcePaths) (p : Nat × List Nat) : ResourcePaths :=
  if paths.any (·.1 == p.1) then paths.map fun q => if q.1 = p.1 then p else q else paths ++ [p]

/-- Sets paths of resources. -/
def setPaths (paths more : ResourcePaths) : ResourcePaths := more.foldl setPath paths

/-- What becomes of the resources of an instance that is imported or exported: they come about here, or
are imported here. -/
def takeInstance (side : Side) (place : Nat) : Assembling Nat := do
  let old := (← get).registry.inst place
  let (place, fresh) ← freshInstance place
  let explicit := ((← get).registry.inst place).explicit
  match side with
  | .needed => update fun ctx =>
    let here := ctx.imports.parts.size
    let paths := fresh.map fun (n, n') => (n', here :: (old.explicit.lookup n).getD [])
    { ctx with imported := ctx.imported ++ paths }
  | .offered => update fun ctx =>
    let here := ctx.exports.parts.size
    { ctx with
      defined := ctx.defined ++ fresh.map fun (_, n') => (n', none)
      explicit := setPaths ctx.explicit (explicit.map fun p => (p.1, here :: p.2)) }
  return place

/-- What becomes of a resource that is imported or exported; a new one comes about with that. -/
def takeResource (side : Side) (isNew : Bool) (n : Nat) : Assembling Unit :=
  update fun ctx =>
    match side with
    | .needed =>
      let here := (n, [ctx.imports.parts.size])
      { ctx with imported := if isNew then setPath ctx.imported here else ctx.imported }
    | .offered =>
      { ctx with
        defined := if isNew then ctx.defined ++ [(n, none)] else ctx.defined
        explicit := setPath ctx.explicit (n, [ctx.exports.parts.size]) }

/-- Adds a part to its index space; `side` tells whether it is imported or exported. -/
def addPart (side : Option Side) (t : PartType) : Assembling PartType := do
  let check (what : String) (limit : Nat) (count : ComponentContext → Nat) : Assembling Unit := do
    checkCount what limit (count (← get).current)
  match t with
  | .module type =>
    update fun ctx => { ctx with modules := ctx.modules.push type }
    check "modules" ComponentContext.partLimit fun ctx => ctx.modules.size
    return t
  | .component place =>
    update fun ctx => { ctx with components := ctx.components.push place }
    check "components" ComponentContext.partLimit fun ctx => ctx.components.size
    return t
  | .inst place =>
    let place ← match side with
      | some side => takeInstance side place
      | none => pure place
    update fun ctx => { ctx with instances := ctx.instances.push place }
    check "instances" ComponentContext.partLimit fun ctx => ctx.instanceCount
    return .inst place
  | .function place =>
    update fun ctx => { ctx with functions := ctx.functions.push place }
    check "functions" ModuleContext.itemLimit fun ctx => ctx.functionCount
    return t
  | .type referenced created =>
    addType created
    match side, created with
    | some side, .resource r => takeResource side (referenced = created) r.resource
    | _, _ => pure ()
    check "types" ModuleContext.itemLimit fun ctx => ctx.types.size
    return t

/-- Adds a part under a name to what is imported or exported. -/
def addNamed (side : Side) (name : String) (t : PartType) : Assembling Unit := do
  let t ← addPart (some side) t
  let r := (← get).registry
  tryUpdate fun ctx => ctx.note r side name t
  tryUpdate fun ctx => do
    let (list, weight) ← (ctx.side side).add r side name t ctx.weight
    return { ctx.setSide side list with weight }

/-- Adds an import or an export of a type, as it is declared. -/
def declarePart (side : Side) (name : String) (t : PartRef) : Assembling Unit := do
  let t ← partType t
  if side = .offered then
    checkCount "exports" ModuleContext.itemLimit ((← get).current.exports.parts.size + 1)
  addNamed side name t

/-- The part of a sort with an index. -/
def partAt : PartSort → Nat → Assembling PartType
  | .module, i => return .module (← ask (·.module i))
  | .function, i => return .function (← ask (·.function i))
  | .value, _ => throw .valuesDisabled
  | .type, i => do
    let t ← ask (·.type i)
    return .type t t
  | .component, i => return .component (← ask (·.component i))
  | .inst, i => return .inst (← ask (·.inst i))

/-- Adds an export of a component, under the type that it is given. -/
def exportPart (name : String) (sort : PartSort) (index : Nat) (given : Option PartRef) :
    Assembling Unit := do
  let actual ← match ← partAt sort index with
    | .type t _ => pure (.type t (← register (·.renamed t)))
    | t => pure t
  match given with
  | none => addNamed .offered name actual
  | some written =>
    let wanted ← partType written
    let s ← get
    liftM <| (Matching.part s.types s.registry.depth s.registry actual wanted).mapError
      fun m => Violation.part (.ascription m)
    addNamed .offered name wanted

/-! ## Names for what is elsewhere -/

/-- Adds a type of an outer context.  One that belongs to another component may not refer to resources. -/
def outerType (count index : Nat) : Assembling Unit := do
  let s ← get
  let scopes := s.current :: s.outer
  let t ← liftM ((← liftM (ComponentContext.levelsOut scopes count)).type index)
  if 0 < count ∧ (scopes[count - 1]?).any (·.scope = .component) then
    require (s.registry.freeResources t).isEmpty .outerResource
  declareType t

/-- Adds a name for something elsewhere. -/
def addAlias : Alias → Assembling Unit
  | .instanceExport sort index name => do
    if sort = .value then throw .valuesDisabled
    let place ← ask (·.inst index)
    match ((← get).registry.inst place).exports.lookup name with
    | none => refuse (.missingExport index name)
    | some t =>
      require (t.sort = sort) (.exportSort index name sort)
      let _ ← addPart none t
  | .coreExport sort index name => tryUpdate (·.nameCore sort index name)
  | .outer .type count index => outerType count index
  | .outer sort count index => do
    let s ← get
    let source ← liftM (ComponentContext.levelsOut (s.current :: s.outer) count)
    match sort with
    | .coreType =>
      let t ← liftM (source.coreType index)
      checkCount "types" ModuleContext.itemLimit (s.current.typeCount + 1)
      update fun ctx => { ctx with coreTypes := ctx.coreTypes.push t }
    | .module =>
      let m ← liftM (source.module index)
      checkCount "modules" ComponentContext.partLimit (s.current.modules.size + 1)
      update fun ctx => { ctx with modules := ctx.modules.push m }
    | _ =>
      let c ← liftM (source.component index)
      checkCount "components" ComponentContext.partLimit (s.current.components.size + 1)
      update fun ctx => { ctx with components := ctx.components.push c }

/-! ## Types of components and instances -/

/-- The type of a component that is put together.  No resource that comes about in it is in its imports,
and those in its exports are exported themselves. -/
def finish (ctx : ComponentContext) (r : Registry) : Except Violation ComponentType := do
  let imports := ctx.imports.parts.toList
  let exports := ctx.exports.parts.toList
  let needed := r.partsResources imports
  if ctx.defined.any fun d => needed.contains d.1 then throw (.part .localResourceImported)
  let offered := r.partsResources exports
  let defined ← (ctx.defined.filter fun d => offered.contains d.1).mapM fun (n, _) =>
    match ctx.explicit.lookup n with
    | some path => .ok (n, path)
    | none => .error (.part .localResourceHidden)
  return { imports, exports, weight := ctx.weight, imported := ctx.imported, defined,
           explicit := ctx.explicit }

/-- Opens a context of its own. -/
def enter (scope : PartScope) : Assembling Unit :=
  modify fun s => { s with current := .empty scope, outer := s.current :: s.outer }

/-- Closes the context at hand. -/
def leave : Assembling ComponentContext := do
  let s ← get
  match s.outer with
  | parent :: outer => set { s with current := parent, outer }
  | [] => pure ()
  return s.current

/-- Closes the context of a type of components. -/
def leaveComponentType : Assembling AnyType := do
  let ctx ← leave
  let c ← liftM (finish ctx (← get).registry)
  return .component (← register (·.addComponent c))

/-- Closes the context of a type of instances. -/
def leaveInstanceType : Assembling AnyType := do
  let ctx ← leave
  return .inst (← register (·.addInstance
    { exports := ctx.exports.parts.toList, weight := ctx.weight, defined := ctx.defined.map Prod.fst,
      explicit := ctx.explicit }))

/-- Adds what a type declares. -/
def declare : PartDecls → Assembling Unit
  | .done => return ()
  | .coreType d rest => do
    checkCount "types" ModuleContext.itemLimit ((← get).current.typeCount + 1)
    coreType d
    declare rest
  | .plainType d rest => do
    declareType (← plainType d)
    declare rest
  | .componentType decls rest => do
    enter .componentType
    declare decls
    declareType (← leaveComponentType)
    declare rest
  | .instanceType decls rest => do
    enter .instanceType
    declare decls
    declareType (← leaveInstanceType)
    declare rest
  | .name target rest => do
    addAlias target
    declare rest
  | .part side name t rest => do
    declarePart side name t
    declare rest

/-- Adds the definition of a type. -/
def define : PartTypeDef → Assembling Unit
  | .plain d => do addType (← plainType d)
  | .component decls => do
    enter .componentType
    declare decls
    addType (← leaveComponentType)
  | .inst decls => do
    enter .instanceType
    declare decls
    addType (← leaveInstanceType)

/-! ## Instances -/

/-- Adds a part that a component is given under a name. -/
def give (given : List (String × PartType)) : String × PartSort × Nat →
    Assembling (List (String × PartType))
  | (name, sort, index) => do
    let t ← partAt sort index
    if given.any fun g => g.1 == name then refuse (.duplicateArgument name name)
    return given ++ [(name, t)]

/-- Checks that a component is given its imports, and gives the resources among them. -/
def checkImports (c : ComponentType) (given : List (String × PartType)) :
    Assembling (List (Nat × Nat)) := do
  let s ← get
  let resources := Matching.resources s.registry given c.imports c.imported
  c.imports.forM fun (name, _) => require (given.lookup name).isSome (.missingArgument name)
  let (wanted, r) := s.registry.replaceResources resources c.imports
  wanted.forM fun (name, want) =>
    match given.lookup name with
    | some found =>
      liftM <| (Matching.part s.types r.depth r found want).mapError
        fun m => Violation.part (.argumentMismatch name m)
    | none => return ()
  return resources

/-- An instance of a component: its exports, with the resources that it is given and those that come
about with it. -/
def instantiate (component : Nat) (args : List (String × PartSort × Nat)) : Assembling Nat := do
  let c := (← get).registry.component (← ask (·.component component))
  let given ← args.foldlM give []
  let resources ← checkImports c given
  let weight ← c.exports.foldlM (fun (w : Weight) e => do
    liftM (w.add ((← get).registry.weight e.2))) Weight.one
  let fresh ← freshResources (c.defined.map Prod.fst)
  let exports ← register fun r =>
    let (exports, r) := r.replaceResources (fresh ++ resources) c.exports
    (r, exports)
  let explicit := c.explicit.map fun p => (((fresh ++ resources).lookup p.1).getD p.1, p.2)
  update fun ctx => { ctx with defined := ctx.defined ++ fresh.map fun p => (p.2, none) }
  register (·.addInstance { exports, weight, defined := [], explicit })

/-- Adds a part under a name to parts that make up an instance. -/
def bundle (s : PartList × Weight × ResourcePaths) : String × PartSort × Nat →
    Assembling (PartList × Weight × ResourcePaths)
  | (name, sort, index) => do
    let (list, weight, explicit) := s
    let t ← partAt sort index
    let r := (← get).registry
    let here := list.parts.size
    let explicit := match t with
      | .type (.resource x) _ => setPath explicit (x.resource, [here])
      | .inst place =>
        setPaths explicit ((r.inst place).explicit.map fun p => (p.1, here :: p.2))
      | _ => explicit
    let (list, weight) ← liftM (list.add r .offered name t weight)
    return (list, weight, explicit)

/-- Adds an instance. -/
def addInstance : PartInstance → Assembling Unit
  | .instantiate component args => do
    let place ← instantiate component args
    update fun ctx => { ctx with instances := ctx.instances.push place }
  | .bundle exports => do
    let (list, weight, explicit) ← exports.foldlM bundle (.empty, .one, [])
    let place ← register (·.addInstance
      { exports := list.parts.toList, weight, defined := [], explicit })
    update fun ctx => { ctx with instances := ctx.instances.push place }

/-! ## Functions across the boundary -/

/-- Refuses an option that is given twice. -/
def once (option : CanonOption) (given : Option Nat) : Assembling Unit :=
  require given.isNone (.repeatedOption option.text)

/-- The type of the memories that values can be kept in. -/
def plainMemory : MemoryType :=
  { limits := { least := 0, most := none, address := .i32 }, isShared := false, pageSize := none }

/-- The signature of a function that finds room. -/
def reallocSignature : Signature := ⟨[.i32, .i32, .i32, .i32], [.i32]⟩

/-- Checks an option and adds it to those at hand, with the way in which texts are written. -/
def addOption (s : Option CanonOption × Boundary) (option : CanonOption) :
    Assembling (Option CanonOption × Boundary) := do
  let (encoding, b) := s
  match option with
  | .utf8 | .utf16 | .latin1 =>
    if let some previous := encoding then refuse (.encodingConflict previous.text option.text)
    return (some option, b)
  | .memory i =>
    once option b.memory
    match ← ask (·.item .memory i) with
    | .memory found =>
      if let some m := ItemType.memoryMismatch? found plainMemory then refuse (.memoryAddress m)
    | _ => pure ()
    return (encoding, { b with memory := some i })
  | .realloc i =>
    once option b.realloc
    let types := (← get).types
    let (_, signature) ← ask (·.coreSignature types i)
    require (signature = reallocSignature) (.optionSignature option.text)
    return (encoding, { b with realloc := some i })
  | .postReturn i =>
    once option b.postReturn
    return (encoding, { b with postReturn := some i })
  | .async | .callback _ => refuse (.optionFeature option.text .async)
  | .coreType _ => refuse (.optionFeature option.text .gc)
  | .gc => refuse .gcOption

/-- Checks options. -/
def boundary (options : List CanonOption) : Assembling Boundary := do
  return (← options.foldlM addOption (none, .plain)).2

/-- Adds a function of modules with a signature. -/
def addCoreFunction (signature : Signature) : Assembling Unit := do
  let s ← get
  let (types, n) := s.types.intern signature
  set { s with types }
  update (·.addItem (.function n false))

/-- Adds a function of a module as one of the component. -/
def lift (function : Nat) (options : List CanonOption) (type : Nat) : Assembling Unit := do
  let place ← ask (·.functionType type)
  let types := (← get).types
  let (n, found) ← ask (·.coreSignature types function)
  let b ← boundary options
  b.postReturn.forM fun f => do
    let (_, s) ← ask (·.coreSignature types f)
    require (s = ⟨found.results, []⟩) (.optionSignature "post-return")
  let r := (← get).registry
  let lowered ← liftM (b.signature r true (r.function place))
  let (types', n') := types.intern lowered
  unless n = n' do
    require (lowered.params = found.params) (.liftedParams lowered.params found.params function)
    require (lowered.results = found.results) (.liftedResults lowered.results found.results function)
    match types'.defs[n']?, types'.defs[n]? with
    | some l, some f => refuse (.liftedType l f function)
    | _, _ => pure ()
  modify fun s => { s with types := types' }
  update fun ctx => { ctx with functions := ctx.functions.push place }

/-- Adds a function of the component as one of modules. -/
def lower (function : Nat) (options : List CanonOption) : Assembling Unit := do
  let place ← ask (·.function function)
  let b ← boundary options
  require b.postReturn.isNone (.loweringOption "post-return")
  let r := (← get).registry
  addCoreFunction (← liftM (b.signature r false (r.function place)))

/-- Adds a function across the boundary. -/
def canonical : CanonFunction → Assembling Unit
  | .lift function options type => lift function options type
  | .lower function options => lower function options
  | .resourceNew i => do
    let rep ← ask (·.resourceRep i)
    addCoreFunction ⟨[rep], [.i32]⟩
  | .resourceDrop i => do
    let _ ← ask (·.resource i)
    addCoreFunction ⟨[.i32], []⟩
  | .resourceRep i => do
    let rep ← ask (·.resourceRep i)
    addCoreFunction ⟨[.i32], [rep]⟩
  | .unsupported cause => refuse cause

end Assembling

end Wasm
end WasmLowering
