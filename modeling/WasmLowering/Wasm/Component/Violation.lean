/-
# Why a component is refused

| class     | causes                                                        |
|-----------|---------------------------------------------------------------|
| mismatch  | a part that cannot stand for the one that is wanted           |
| type      | a type that is not of the right sort or not well formed       |
| name      | a name that is not well formed, is taken, or does not fit     |
| resource  | a resource that is used where it is not known                 |
| canonical | a function that does not go with what the boundary asks for   |
| feature   | a type or a function of the system that is not supported      |
-/

import WasmLowering.Wasm.Component.Name
import WasmLowering.Wasm.Component.Sort

namespace WasmLowering
namespace Wasm

/-- Where within a type a mismatch is. -/
inductive MismatchPlace where
  | parameter (name : String)
  | result
  | recordField (name : String)
  | variantCase (name : String)
  | tupleField (position : Nat)
  | ok
  | err
  | instanceExport (name : String)
  | moduleImport (module item : String)
  | moduleExport (name : String)
  /-- An import or an export of a component. -/
  | part (side : Side) (name : String)
  deriving DecidableEq, Repr

/-- The wording of a place. -/
def MismatchPlace.text : MismatchPlace → String
  | parameter name => s!"type mismatch in function parameter `{name}`"
  | result => "type mismatch with result type"
  | recordField name => s!"type mismatch in record field `{name}`"
  | variantCase name => s!"type mismatch in variant case `{name}`"
  | tupleField position => s!"type mismatch in tuple field {position}"
  | ok => "type mismatch in ok variant"
  | err => "type mismatch in err variant"
  | instanceExport name => s!"type mismatch in instance export `{name}`"
  | moduleImport m i => s!"type mismatch in import `{m}::{i}`"
  | moduleExport name => s!"type mismatch in export `{name}`"
  | part side name => s!"type mismatch for {side.text} `{name}`"

/-- Why a part cannot stand for one that is wanted. -/
inductive PartMismatch where
  | sort (wanted found : String)
  | primitive (wanted found : Primitive)
  | count (wanted : Nat) (what : String) (found : Nat)
  | parameterName (wanted found : String)
  | fieldName (wanted found : String)
  | caseName (wanted found : String)
  | caseWithoutType (name : String)
  | caseWithType (name : String)
  /-- The names of flags or of an enumeration differ. -/
  | names (what : String)
  | noResult
  | extraResult
  /-- One of the types of a result is missing. -/
  | noOutcome (outcome : String)
  | extraOutcome (outcome : String)
  | resource
  | missingExport (name : String)
  | missingModuleImport (module item : String)
  /-- A component is not given an import, or does not have an export. -/
  | missingPart (side : Side) (name : String)
  | item (mismatch : ItemMismatch)
  | within (place : MismatchPlace) (mismatch : PartMismatch)
  deriving DecidableEq, Repr

/-- The wording of a mismatch. -/
def PartMismatch.text : PartMismatch → String
  | sort w f => s!"expected {w}, found {f}"
  | primitive w f => s!"expected primitive `{w.text}` found primitive `{f.text}`"
  | count w what f => s!"expected {w} {what}, found {f}"
  | parameterName w f => s!"expected parameter named `{w}`, found `{f}`"
  | fieldName w f => s!"expected field name `{w}`, found `{f}`"
  | caseName w f => s!"expected case named `{w}`, found `{f}`"
  | caseWithoutType name => s!"expected case `{name}` to have a type, found none"
  | caseWithType name => s!"expected case `{name}` to have no type"
  | names what => s!"mismatch in {what} elements"
  | noResult => "expected a result, found none"
  | extraResult => "expected no result, found one"
  | noOutcome outcome => s!"expected {outcome} type, but found none"
  | extraOutcome outcome => s!"expected {outcome} type to not be present"
  | resource => "resource types are not the same"
  | missingExport name => s!"missing expected export `{name}`"
  | missingModuleImport m i => s!"missing expected import `{m}::{i}`"
  | missingPart side name => s!"missing {side.text} named `{name}`"
  | item mismatch => mismatch.text
  | within place mismatch => place.text ++ "\n" ++ mismatch.text

/-- Why a function does not go with a resource as its name says. -/
inductive MemberFault where
  | notFunction
  | noResult
  | notOwn
  | noSelf
  | selfName
  | notBorrow
  | unknownResource
  | unnamedResource
  | otherResource (expected : String)
  deriving DecidableEq, Repr

/-- The wording of a fault. -/
def MemberFault.text : MemberFault → String
  | notFunction => "item is not a func"
  | noResult => "function should return one value"
  | notOwn => "function should return `(own $T)` or `(result (own $T))`"
  | noSelf => "function should have at least one argument"
  | selfName => "function should have a first argument called `self`"
  | notBorrow => "function should take a first argument of `(borrow $T)`"
  | unknownResource => "static resource name is not known in this context"
  | unnamedResource => "resource used in function does not have a name in this context"
  | otherResource expected => s!"function does not match expected resource name `{expected}`"

/-- What components can be written with that is not supported. -/
inductive PartFeature where
  | async
  | asyncBuiltins
  | stackful
  | threading
  | errorContext
  | fixedLists
  | maps
  | gc
  deriving DecidableEq, Repr

/-- The name of a feature in messages. -/
def PartFeature.text : PartFeature → String
  | async => "async"
  | asyncBuiltins => "async builtins"
  | stackful => "async stackful"
  | threading => "threading"
  | errorContext => "error-context"
  | fixedLists => "fixed-length lists"
  | maps => "map"
  | gc => "gc"

/-- A cause for refusing a component. -/
inductive PartViolation where
  -- Types.
  | notDefinedType (index : Nat)
  | notResource (index : Nat)
  | notLocalResource (index : Nat)
  | notInstanceType (index : Nat)
  | notComponentType (index : Nat)
  | notModuleType (index : Nat)
  /-- The name of a field, case, flag or the like is no label. -/
  | badWord (what word : String)
  | duplicateWord (what before word previous : String)
  | noFields
  | noCases
  /-- A case of a variant refines one that is not before it. -/
  | laterCase
  | noItems
  | noFlags
  | tooManyFlags
  | noTags
  | borrowInResult
  | resourceInType
  | resourceRep
  | destructorSignature (function : Nat)
  -- Names.
  | badName (side : Side) (name : String) (fault : NameFault)
  | badExportName (name : String)
  | badMember (side : Side) (name : String) (fault : MemberFault)
  | duplicateName (side : Side) (name previous : String)
  /-- A type that is imported or exported refers to one that is not. -/
  | unnamedType (sort : PartSort) (side : Side)
  -- Instances.
  | duplicateArgument (name previous : String)
  | missingArgument (name : String)
  | argumentMismatch (name : String) (mismatch : PartMismatch)
  | missingExport (index : Nat) (name : String)
  | exportSort (index : Nat) (name : String) (wanted : PartSort)
  | ascription (mismatch : PartMismatch)
  -- Resources.
  | outerResource
  | localResourceImported
  | localResourceHidden
  -- Functions across the boundary.
  | encodingConflict (first second : String)
  | repeatedOption (option : String)
  | missingOption (option : String)
  | optionSignature (option : String)
  | loweringOption (option : String)
  | optionFeature (option : String) (feature : PartFeature)
  | gcOption
  | memoryAddress (mismatch : ItemMismatch)
  | liftedParams (lowered found : List ValType) (function : Nat)
  | liftedResults (lowered found : List ValType) (function : Nat)
  | liftedType (lowered found : TypeDef) (function : Nat)
  -- Features.
  | typeFeature (types : String) (feature : PartFeature)
  | builtinFeature (builtin : String) (feature : PartFeature)
  | sharedBuiltin (builtin : String)
  deriving DecidableEq, Repr

namespace PartViolation

/-- The type of a module's words, as it is listed. -/
def wordType : ValType → String
  | .ref r => "Ref(" ++ r.fullText ++ ")"
  | t => t.fullText.toUpper

/-- Types of a module's words in brackets. -/
def wordTypes (types : List ValType) : String :=
  "[" ++ String.intercalate ", " (types.map wordType) ++ "]"

/-- A definition of a type of functions, part by part. -/
def definition (d : TypeDef) : String :=
  let shape := match d.shape with
    | .func s => "Func(FuncType \x7b params: " ++ wordTypes s.params ++ ", results: " ++
      wordTypes s.results ++ " \x7d)"
    | shape => shape.text
  let parent := match d.parent with
    | some p => s!"Some(CoreTypeId({p}))"
    | none => "None"
  s!"SubType \x7b is_final: {d.isFinal}, supertype_idx: {parent}, composite_type: " ++
  "CompositeType \x7b inner: " ++ shape ++
  ", shared: false, descriptor_idx: None, describes_idx: None \x7d \x7d"

/-- The wording of a cause. -/
def text : PartViolation → String
  | notDefinedType i => s!"type index {i} is not a defined type"
  | notResource i => s!"type index {i} is not a resource type"
  | notLocalResource i => s!"type {i} is not a local resource"
  | notInstanceType i => s!"type index {i} is not an instance type"
  | notComponentType i => s!"type index {i} is not a component type"
  | notModuleType i => s!"core type index {i} is not a module type"
  | badWord what word =>
    if word.isEmpty then s!"{what} name cannot be empty"
    else s!"{what} name `{word}` is not in kebab case"
  | duplicateWord what before word previous =>
    s!"{what} name `{word}` conflicts with previous {before} name `{previous}`"
  | noFields => "record type must have at least one field"
  | noCases => "variant type must have at least one case"
  | laterCase => "variant case can only refine a previously defined case"
  | noItems => "tuple type must have at least one type"
  | noFlags => "flags must have at least one entry"
  | tooManyFlags => "cannot have more than 32 flags"
  | noTags => "enum type must have at least one variant"
  | borrowInResult => "function result cannot contain a `borrow` type"
  | resourceInType => "resources can only be defined within a concrete component"
  | resourceRep => "resources can only be represented by `i32`"
  | destructorSignature f => s!"core function {f} has wrong signature for a destructor"
  | badName side name fault =>
    s!"{side.text} name `{name}` is not a valid extern name\n" ++ fault.text
  | badExportName name => s!"name `{name}` is not a valid export name"
  | badMember side name fault => s!"{side.text} name `{name}` is not valid\n" ++ fault.text
  | duplicateName side name previous =>
    s!"{side.text} name `{name}` conflicts with previous name `{previous}`"
  | unnamedType sort side => s!"{sort.text} not valid to be used as {side.text}"
  | duplicateArgument name previous =>
    s!"instantiation argument `{name}` conflicts with previous argument `{previous}`"
  | missingArgument name => s!"missing import named `{name}`"
  | argumentMismatch name mismatch => s!"type mismatch for import `{name}`\n" ++ mismatch.text
  | missingExport i name => s!"instance {i} has no export named `{name}`"
  | exportSort i name wanted => s!"export `{name}` for instance {i} is not a {wanted.text}"
  | ascription mismatch =>
    "ascribed type of export is not compatible with item's type\n" ++ mismatch.text
  | outerResource =>
    "cannot alias outer type which transitively refers to resources not defined in the current " ++
    "component"
  | localResourceImported => "local resource type found in imports"
  | localResourceHidden => "local resource type found in export but not exported itself"
  | encodingConflict first second =>
    s!"canonical encoding option `{first}` conflicts with option `{second}`"
  | repeatedOption option => s!"canonical option `{option}` is specified more than once"
  | missingOption option => s!"canonical option `{option}` is required"
  | optionSignature option =>
    s!"canonical option `{option}` uses a core function with an incorrect signature"
  | loweringOption option => s!"canonical option `{option}` cannot be specified for lowerings"
  | optionFeature option feature =>
    s!"canonical option `{option}` requires the component model {feature.text} feature"
  | gcOption => "canonical option `gc` requires the `cm-gc` feature"
  | memoryAddress mismatch =>
    "canonical ABI memory is not a 32-bit linear memory\n" ++ mismatch.text
  | liftedParams lowered found f =>
    "lowered parameter types `" ++ wordTypes lowered ++ "` do not match parameter types `" ++
    wordTypes found ++ s!"` of core function {f}"
  | liftedResults lowered found f =>
    "lowered result types `" ++ wordTypes lowered ++ "` do not match result types `" ++
    wordTypes found ++ s!"` of core function {f}"
  | liftedType lowered found f =>
    "lowered function type `" ++ definition lowered ++ "` does not match type `" ++
    definition found ++ s!"` of core function {f}"
  | typeFeature types feature => s!"{types} the component model {feature.text} feature"
  | builtinFeature builtin feature =>
    s!"`{builtin}` requires the component model {feature.text} feature"
  | sharedBuiltin builtin =>
    s!"`{builtin}` requires the shared-everything-threads proposal"

end PartViolation

end Wasm
end WasmLowering
