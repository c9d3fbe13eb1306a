/-
# Reading parts of components

| section    | parts                                                      |
|------------|------------------------------------------------------------|
| core types | types that modules define, and types of modules            |
| core instances | instances of modules                                   |
| types      | types of values, functions, instances, components; resources |
| instances  | instances of components                                    |
| aliases    | names for what is elsewhere                                |
| canonical  | functions across the boundary between modules and components |
| imports, exports | parts under names                                    |

A part is read as it is written, before anything in it is looked at.
-/

import WasmLowering.Wasm.Component.Type

namespace WasmLowering
namespace Wasm

/-- What is declared in a type of modules. -/
inductive ModuleDecl where
  | types (group : List TypeDef)
  | needs (name : ImportName) (type : ItemType)
  | offers (name : String) (type : ItemType)
  /-- A type of the module type itself, or of a component around it. -/
  | outerType (count index : Nat)
  deriving DecidableEq, Repr

/-- The definition of a type for modules. -/
inductive CoreTypeDef where
  | group (types : List TypeDef)
  | module (decls : List ModuleDecl)
  deriving DecidableEq, Repr

/-- How an instance of a module comes about. -/
inductive CoreInstance where
  /-- A module with an instance for each name that it imports from. -/
  | instantiate (module : Nat) (args : List (String × Nat))
  /-- Items under names. -/
  | bundle (exports : List (String × ItemSort × Nat))
  deriving DecidableEq, Repr

/-- What a name for something in an outer component may stand for. -/
inductive OuterSort where
  | coreType
  | module
  | type
  | component
  deriving DecidableEq, Repr

/-- A name for something elsewhere. -/
inductive Alias where
  /-- An export of an instance of a component. -/
  | instanceExport (sort : PartSort) (index : Nat) (name : String)
  /-- An export of an instance of a module. -/
  | coreExport (sort : ItemSort) (index : Nat) (name : String)
  /-- A part of the component so many levels out. -/
  | outer (sort : OuterSort) (count index : Nat)
  deriving DecidableEq, Repr

/-- The type of a value as it is written. -/
inductive ValueRef where
  | primitive (p : Primitive)
  | index (i : Nat)
  deriving DecidableEq, Repr

/-- The definition of a type that declares nothing. -/
inductive TypeBody where
  | value (shape : ValueShape ValueRef Nat)
  /-- A variant, whose cases may refine others. -/
  | variant (cases : List (String × Option ValueRef × Option Nat))
  | function (isAsync : Bool) (params : List (String × ValueRef)) (result : Option ValueRef)
  /-- A resource, the type of the words that stand for it, and what is called when it is dropped. -/
  | resource (rep : ValType) (destructor : Option Nat)
  /-- Types of a feature that is not supported. -/
  | unsupported (types : String) (feature : PartFeature)
  deriving DecidableEq, Repr

/-- The type of an import or an export as it is written. -/
inductive PartRef where
  | module (index : Nat)
  | function (index : Nat)
  | value (type : ValueRef)
  | equalType (index : Nat)
  | anyResource
  | component (index : Nat)
  | inst (index : Nat)
  deriving DecidableEq, Repr

/-- What is declared in a type of components or instances, in order. -/
inductive PartDecls where
  | done
  | coreType (type : CoreTypeDef) (rest : PartDecls)
  | plainType (type : TypeBody) (rest : PartDecls)
  | componentType (decls rest : PartDecls)
  | instanceType (decls rest : PartDecls)
  | name (target : Alias) (rest : PartDecls)
  | part (side : Side) (name : String) (type : PartRef) (rest : PartDecls)
  deriving DecidableEq, Repr

/-- The definition of a type. -/
inductive PartTypeDef where
  | plain (type : TypeBody)
  | component (decls : PartDecls)
  | inst (decls : PartDecls)
  deriving DecidableEq, Repr

/-- How an instance of a component comes about. -/
inductive PartInstance where
  /-- A component with a part for each of its imports. -/
  | instantiate (component : Nat) (args : List (String × PartSort × Nat))
  /-- Parts under names. -/
  | bundle (exports : List (String × PartSort × Nat))
  deriving DecidableEq, Repr

/-- An option of a function across the boundary. -/
inductive CanonOption where
  | utf8
  | utf16
  | latin1
  | memory (index : Nat)
  | realloc (function : Nat)
  | postReturn (function : Nat)
  | async
  | callback (function : Nat)
  | coreType (index : Nat)
  | gc
  deriving DecidableEq, Repr

/-- The name of an option. -/
def CanonOption.text : CanonOption → String
  | utf8 => "utf8"
  | utf16 => "utf16"
  | latin1 => "latin1-utf16"
  | memory _ => "memory"
  | realloc _ => "realloc"
  | postReturn _ => "post-return"
  | async => "async"
  | callback _ => "callback"
  | coreType _ => "core type"
  | gc => "gc"

/-- A function across the boundary between modules and components. -/
inductive CanonFunction where
  /-- A function of a module as one of a component. -/
  | lift (function : Nat) (options : List CanonOption) (type : Nat)
  /-- A function of a component as one of a module. -/
  | lower (function : Nat) (options : List CanonOption)
  | resourceNew (type : Nat)
  | resourceDrop (type : Nat)
  | resourceRep (type : Nat)
  | unsupported (cause : PartViolation)
  deriving DecidableEq, Repr

/-- The type with a byte, of values that need no definition. -/
def Primitive.ofByte? : UInt8 → Option Primitive
  | 0x7f => some .bool
  | 0x7e => some .s8
  | 0x7d => some .u8
  | 0x7c => some .s16
  | 0x7b => some .u16
  | 0x7a => some .s32
  | 0x79 => some .u32
  | 0x78 => some .s64
  | 0x77 => some .u64
  | 0x76 => some .f32
  | 0x75 => some .f64
  | 0x74 => some .char
  | 0x73 => some .string
  | 0x64 => some .errorContext
  | _ => none

namespace Reader

/-- The most declarations of a type. -/
def declLimit : Nat := 100000

/-- The most arguments, and the most exports, of an instance. -/
def argumentLimit : Nat := 131072

/-- The most fields, cases, items or names of a type of values. -/
def memberLimit : Nat := 10000

/-- The most options of a function across the boundary. -/
def optionLimit : Nat := 10

/-- Refuses a byte at an offset that stands for nothing. -/
def badByte {α : Type} (offset : Nat) (b : UInt8) (what : String) : Reader α :=
  refuse offset (.badLead b.toNat what)

/-- Takes a byte and what follows it; a byte that stands for nothing is refused. -/
def tagged {α : Type} (what : String) (item : UInt8 → Option (Reader α)) : Reader α := do
  let here ← position
  let b ← byte
  match item b with
  | some r => r
  | none => badByte here b what

/-- Takes something that may be left out, after a byte that tells whether it is there. -/
def optional {α : Type} (what : String) (item : Reader α) : Reader (Option α) :=
  tagged what fun
    | 0x00 => some (return none)
    | 0x01 => some (some <$> item)
    | _ => none

/-! ## Parts for modules -/

/-- Takes what is declared in a type of modules. -/
def moduleDecl : Reader ModuleDecl := do
  let here ← position
  match ← byte with
  | 0x00 =>
    let module ← name
    let item ← name
    return .needs (module, item) (← itemType)
  | 0x01 => return .types (← typeGroup)
  | 0x02 =>
    let kind ← byte
    if kind ≠ 0x10 then badByte (here + 1) kind "outer alias kind"
    let target ← byte
    if target ≠ 0x01 then badByte (here + 2) target "outer alias target"
    return .outerType (← u32) (← u32)
  | 0x03 =>
    let name ← name
    return .offers name (← itemType)
  | b => badByte here b "type definition"

/-- Takes the definition of a type for modules.  A type with subtypes starts with a mark, since its
own first byte tells of a type of modules here. -/
def coreTypeDef : Reader CoreTypeDef := do
  let here ← position
  match ← peek with
  | 0x00 =>
    let _ ← byte
    let b ← peek
    if b ≠ 0x50 then badByte here b "non-final sub type"
    return .group (← typeGroup)
  | 0x50 =>
    let _ ← byte
    return .module (← limited declLimit "module type declaration" moduleDecl)
  | _ => return .group (← typeGroup)

/-- Takes an argument of an instance of a module. -/
def coreArgument : Reader (String × Nat) := do
  let name ← name
  let here ← position
  let b ← byte
  if b ≠ 0x12 then badByte here b "instantiation arg kind"
  return (name, ← u32)

/-- Takes an item under a name. -/
def coreExport : Reader (String × ItemSort × Nat) := do
  let name ← name
  let sort ← exportSort
  return (name, sort, ← u32)

/-- Takes how an instance of a module comes about. -/
def coreInstance : Reader CoreInstance :=
  tagged "core instance" fun
    | 0x00 => some do
      let module ← u32
      return .instantiate module (← limited argumentLimit "core instantiation arguments" coreArgument)
    | 0x01 => some do
      return .bundle (← limited argumentLimit "core instantiation arguments" coreExport)
    | _ => none

/-! ## Sorts and names -/

/-- The sort of a part, by the bytes that tell it. -/
def partSortOf (here : Nat) (first : UInt8) : Option UInt8 → Reader PartSort
  | some 0x11 => return .module
  | some b => badByte (here + 1) b "component external kind"
  | none =>
    match first with
    | 0x01 => return .function
    | 0x02 => return .value
    | 0x03 => return .type
    | 0x04 => return .component
    | 0x05 => return .inst
    | b => badByte here b "component external kind"

/-- Takes the bytes that tell a sort: the sorts of modules have two. -/
def sortBytes : Reader (UInt8 × Option UInt8) := do
  let first ← byte
  if first = 0x00 then return (first, some (← byte))
  return (first, none)

/-- Takes the sort of a part. -/
def partSort : Reader PartSort := do
  let here ← position
  let (first, second) ← sortBytes
  partSortOf here first second

/-- The sort of an export of an instance of a module, by the bytes that tell it. -/
def coreSort (here : Nat) (first : UInt8) : Option UInt8 → Reader ItemSort
  | none => badByte here first "core instance export kind"
  | some 0x20 => return .function
  | some b =>
    match itemSort? b with
    | some sort => return sort
    | none => badByte here b "external kind"

/-- The sort of a part of an outer component, by the bytes that tell it. -/
def outerSort (here : Nat) (first : UInt8) (second : Option UInt8) : Reader OuterSort :=
  match second, first with
  | some 0x10, _ => return .coreType
  | some 0x11, _ => return .module
  | some b, _ => badByte (here + 1) b "component outer alias kind"
  | none, 0x03 => return .type
  | none, 0x04 => return .component
  | none, b => badByte here b "component outer alias kind"

/-- Takes a name for something elsewhere. -/
def partAlias : Reader Alias := do
  let here ← position
  let (first, second) ← sortBytes
  tagged "alias" fun
    | 0x00 => some do
      let sort ← partSortOf here first second
      return .instanceExport sort (← u32) (← name)
    | 0x01 => some do
      let sort ← coreSort here first second
      return .coreExport sort (← u32) (← name)
    | 0x02 => some do
      let sort ← outerSort here first second
      return .outer sort (← u32) (← u32)
    | _ => none

/-- Takes the name of an import or an export. -/
def externName (side : Side) : Reader String :=
  tagged (side.text ++ " name") fun
    | 0x00 | 0x01 => some name
    | _ => none

/-! ## Types -/

/-- Takes the type of a value.  An index is a number of 33 bits that is cut to 32. -/
def valueRef : Reader ValueRef := do
  match Primitive.ofByte? (← peek) with
  | some p =>
    let _ ← byte
    return .primitive p
  | none => return .index ((← s33) % 4294967296).toNat

/-- Takes a name and the type of a value. -/
def namedValue : Reader (String × ValueRef) := return (← name, ← valueRef)

/-- Takes the type of a value that may be left out. -/
def optionalValue : Reader (Option ValueRef) := optional "optional component value type" valueRef

/-- Takes a case of a variant, and the number of the case that it refines. -/
def variantCase : Reader (String × Option ValueRef × Option Nat) :=
  return (← name, ← optionalValue, ← optional "variant case refines" u32)

/-- Takes the result of a function, or that there is none. -/
def functionResult : Reader (Option ValueRef) :=
  tagged "component function results" fun
    | 0x00 => some (some <$> valueRef)
    | 0x01 => some (tagged "number of results" fun
      | 0x00 => some (return none)
      | _ => none)
    | _ => none

/-- Takes the rest of a type of functions. -/
def functionBody (isAsync : Bool) : Reader TypeBody := do
  let params ← limited arityLimit "component function parameters" namedValue
  return .function isAsync params (← functionResult)

/-- Takes the rest of a type of values of a feature that is not supported. -/
def unsupportedType {α : Type} (types : String) (feature : PartFeature) (rest : Reader α) :
    Reader TypeBody := do
  let _ ← rest
  return .unsupported types feature

/-- Takes the rest of a definition that declares nothing, which stands for nothing if its first byte
tells of none. -/
def typeBody (here : Nat) : UInt8 → Reader TypeBody
  | 0x3f => do
    let rep ← valType
    return .resource rep (← optional "resource destructor" u32)
  | 0x40 => functionBody false
  | 0x43 => functionBody true
  | 0x72 => return .value (.record (← limited memberLimit "record field" namedValue))
  | 0x71 => return .variant (← limited memberLimit "variant cases" variantCase)
  | 0x70 => return .value (.list (← valueRef))
  | 0x6f => return .value (.tuple (← limited memberLimit "tuple types" valueRef))
  | 0x6e => return .value (.flags (← limited memberLimit "flag names" name))
  | 0x6d => return .value (.enumeration (← limited memberLimit "enum cases" name))
  | 0x6b => return .value (.option (← valueRef))
  | 0x6a => return .value (.result (← optionalValue) (← optionalValue))
  | 0x69 => return .value (.own (← u32))
  | 0x68 => return .value (.borrow (← u32))
  | 0x67 => unsupportedType "Fixed-length lists require" .fixedLists do
    let _ ← valueRef
    u32
  | 0x66 => unsupportedType "`stream` requires" .async optionalValue
  | 0x65 => unsupportedType "`future` requires" .async optionalValue
  | 0x63 => unsupportedType "Maps require" .maps do
    let _ ← valueRef
    valueRef
  | b =>
    match Primitive.ofByte? b with
    | some p => return .value (.primitive p)
    | none => badByte here b "component defined type"

/-- Takes the type of an import or an export. -/
def partRef : Reader PartRef := do
  match ← partSort with
  | .module => return .module (← u32)
  | .function => return .function (← u32)
  | .value => return .value (← valueRef)
  | .type => tagged "type bound" fun
    | 0x00 => some do return .equalType (← u32)
    | 0x01 => some (return .anyResource)
    | _ => none
  | .component => return .component (← u32)
  | .inst => return .inst (← u32)

/-- Takes an import or an export of a type of components or instances, and what is declared after it. -/
def partDecl (side : Side) (rest : Reader PartDecls) : Reader PartDecls := do
  let name ← externName side
  let type ← partRef
  return .part side name type (← rest)

/-- Takes a number of declarations of a type, of a component if `hasImports`.  A declaration takes a
byte; there are at most `limit`, those within declarations included. -/
def partDecls (hasImports : Bool) : (limit count : Nat) → Reader PartDecls
  | _, 0 => return .done
  | 0, _ + 1 => do refuse (← position) .endOfFile
  | limit + 1, count + 1 => do
    let here ← position
    match ← byte with
    | 0x00 =>
      let d ← coreTypeDef
      return .coreType d (← partDecls hasImports limit count)
    | 0x01 =>
      let typeAt ← position
      match ← byte with
      | 0x41 =>
        let inner ← partDecls true limit (← size declLimit "component type declaration")
        return .componentType inner (← partDecls hasImports limit count)
      | 0x42 =>
        let inner ← partDecls false limit (← size declLimit "instance type declaration")
        return .instanceType inner (← partDecls hasImports limit count)
      | b =>
        let d ← typeBody typeAt b
        return .plainType d (← partDecls hasImports limit count)
    | 0x02 =>
      let a ← partAlias
      return .name a (← partDecls hasImports limit count)
    | 0x03 =>
      if hasImports then partDecl .needed (partDecls hasImports limit count)
      else badByte here 0x03 "component or instance type declaration"
    | 0x04 => partDecl .offered (partDecls hasImports limit count)
    | b => badByte here b "component or instance type declaration"

/-- Takes the definition of a type. -/
def partTypeDef : Reader PartTypeDef := do
  let here ← position
  let bytes := (← get).bytes
  match ← byte with
  | 0x41 =>
    return .component (← partDecls true bytes.length (← size declLimit "component type declaration"))
  | 0x42 =>
    return .inst (← partDecls false bytes.length (← size declLimit "instance type declaration"))
  | b => return .plain (← typeBody here b)

/-! ## Instances, imports and exports -/

/-- Takes an argument of an instance of a component. -/
def partArgument : Reader (String × PartSort × Nat) := return (← name, ← partSort, ← u32)

/-- Takes an export of an instance that is put together from parts. -/
def partExport : Reader (String × PartSort × Nat) :=
  return (← externName .offered, ← partSort, ← u32)

/-- Takes how an instance of a component comes about. -/
def partInstance : Reader PartInstance :=
  tagged "instance" fun
    | 0x00 => some do
      let component ← u32
      return .instantiate component (← limited argumentLimit "instantiation arguments" partArgument)
    | 0x01 => some do
      return .bundle (← limited argumentLimit "instantiation exports" partExport)
    | _ => none

/-- Takes an import of a component. -/
def importPart : Reader (String × PartRef) := return (← externName .needed, ← partRef)

/-- Takes an export of a component, with a type that it is given. -/
def exportPart : Reader ((String × PartSort × Nat) × Option PartRef) := do
  let e ← partExport
  return (e, ← optional "optional component export type" partRef)

/-! ## Functions across the boundary -/

/-- Takes an option. -/
def canonOption : Reader CanonOption :=
  tagged "canonical option" fun
    | 0x00 => some (return .utf8)
    | 0x01 => some (return .utf16)
    | 0x02 => some (return .latin1)
    | 0x03 => some do return .memory (← u32)
    | 0x04 => some do return .realloc (← u32)
    | 0x05 => some do return .postReturn (← u32)
    | 0x06 => some (return .async)
    | 0x07 => some do return .callback (← u32)
    | 0x08 => some do return .coreType (← u32)
    | 0x09 => some (return .gc)
    | _ => none

/-- Takes options. -/
def canonOptions : Reader (List CanonOption) := limited optionLimit "canonical options" canonOption

/-- Takes a byte that tells yes or no. -/
def yesNo : Reader Bool :=
  tagged "boolean" fun
    | 0x00 => some (return false)
    | 0x01 => some (return true)
    | _ => none

/-- What belongs to a function of the system after its byte. -/
inductive BuiltinRest where
  | nothing
  | index
  | indices
  | choice
  | options
  | typeAndOptions
  | typeAndChoice
  | choiceAndIndex
  | resultAndOptions
  | slot
  deriving DecidableEq, Repr

/-- Takes what belongs to a function of the system. -/
def builtinRest (builtin : String) : BuiltinRest → Reader Unit
  | .nothing => return ()
  | .index => do
    let _ ← u32
  | .indices => do
    let _ ← u32
    let _ ← u32
  | .choice => do
    let _ ← yesNo
  | .options => do
    let _ ← canonOptions
  | .typeAndOptions => do
    let _ ← u32
    let _ ← canonOptions
  | .typeAndChoice => do
    let _ ← u32
    let _ ← yesNo
  | .choiceAndIndex => do
    let _ ← yesNo
    let _ ← u32
  | .resultAndOptions => do
    let _ ← functionResult
    let _ ← canonOptions
  | .slot => tagged (builtin ++ " intrinsic type") fun
    | 0x7f => some do
      let _ ← u32
    | _ => none

/-- The functions of the system that are not supported, by their bytes from `05` on. -/
def builtins : List (String × BuiltinRest) :=
  [ ("task.cancel", .nothing), ("subtask.cancel", .choice), ("resource.drop` as `async", .index),
    ("backpressure.set", .nothing), ("task.return", .resultAndOptions), ("context.get", .slot),
    ("context.set", .slot), ("thread.yield", .choice), ("subtask.drop", .nothing),
    ("stream.new", .index), ("stream.read", .typeAndOptions), ("stream.write", .typeAndOptions),
    ("stream.cancel-read", .typeAndChoice), ("stream.cancel-write", .typeAndChoice),
    ("stream.drop-readable", .index), ("stream.drop-writable", .index), ("future.new", .index),
    ("future.read", .typeAndOptions), ("future.write", .typeAndOptions),
    ("future.cancel-read", .typeAndChoice), ("future.cancel-write", .typeAndChoice),
    ("future.drop-readable", .index), ("future.drop-writable", .index),
    ("error-context.new", .options), ("error-context.debug-message", .options),
    ("error-context.drop", .nothing), ("waitable-set.new", .nothing),
    ("waitable-set.wait", .choiceAndIndex), ("waitable-set.poll", .choiceAndIndex),
    ("waitable-set.drop", .nothing), ("waitable.join", .nothing), ("backpressure.inc", .nothing),
    ("backpressure.dec", .nothing), ("thread.index", .nothing), ("thread.new-indirect", .indices),
    ("thread.switch-to", .choice), ("thread.suspend", .choice), ("thread.resume-later", .nothing),
    ("thread.yield-to", .choice) ]

/-- The feature of a function of the system. -/
def builtinFeature (builtin : String) : PartFeature :=
  if builtin.startsWith "error-context" then .errorContext
  else if builtin.startsWith "thread" && builtin ≠ "thread.yield" then .threading
  else if builtin.startsWith "resource" then .asyncBuiltins
  else .async

/-- Takes the rest of a function of the system that is not supported, which stands for nothing if its
byte tells of none. -/
def builtin (here : Nat) (b : UInt8) : Reader CanonFunction := do
  match builtins[b.toNat - 5]? with
  | some (name, rest) =>
    builtinRest name rest
    return .unsupported (.builtinFeature name (builtinFeature name))
  | none => badByte here b "canonical function"

/-- Takes the rest of a function of the system for threads. -/
def threadBuiltin (name : String) (rest : BuiltinRest) : Reader CanonFunction := do
  builtinRest name rest
  return .unsupported (.sharedBuiltin name)

/-- Takes a function across the boundary. -/
def canonFunction : Reader CanonFunction := do
  let here ← position
  match ← byte with
  | 0x00 => tagged "canonical function lift" fun
    | 0x00 => some do
      let function ← u32
      let options ← canonOptions
      return .lift function options (← u32)
    | _ => none
  | 0x01 => tagged "canonical function lower" fun
    | 0x00 => some do return .lower (← u32) (← canonOptions)
    | _ => none
  | 0x02 => return .resourceNew (← u32)
  | 0x03 => return .resourceDrop (← u32)
  | 0x04 => return .resourceRep (← u32)
  | 0x40 => threadBuiltin "thread.spawn-ref" .index
  | 0x41 => threadBuiltin "thread.spawn-indirect" .indices
  | 0x42 => threadBuiltin "thread.available-parallelism" .nothing
  | b => builtin here b

end Reader

end Wasm
end WasmLowering
