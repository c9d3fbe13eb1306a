/-
# Parts that stand for others

A part that is given stands for one that is wanted if it is of the same sort and
its type is below the one that is wanted.

| sort      | is below                                                       |
|-----------|----------------------------------------------------------------|
| module    | one that needs at least as much and offers at most as much     |
| function, value | the same type                                            |
| resource  | the same resource                                              |
| instance  | one with at most the same exports, each below                  |
| component | one with at least the same imports and at most the same exports |
-/

import WasmLowering.Wasm.Component.Resource

namespace WasmLowering
namespace Wasm

/-- What is to be found out: that nothing is in the way, or what is. -/
abbrev Matching := Except PartMismatch Unit

namespace Matching

/-- A matching of something at a place. -/
def inside (place : MismatchPlace) (m : Matching) : Matching :=
  m.mapError (PartMismatch.within place)

/-- Refuses what does not hold. -/
def require (condition : Bool) (cause : PartMismatch) : Matching :=
  if condition then .ok () else .error cause

/-- Matches the items of two lists one by one. -/
def all {α : Type} (f : α → α → Matching) : List α → List α → Matching
  | a :: as, b :: bs => do
    f a b
    all f as bs
  | _, _ => .ok ()

/-- Matches two things of which either may be missing. -/
def optional {α : Type} (f : α → α → Matching) (missing extra : PartMismatch) :
    (found wanted : Option α) → Matching
  | some a, some b => f a b
  | none, none => .ok ()
  | none, some _ => .error missing
  | some _, none => .error extra

/-- Matches types of values that need no definition. -/
def primitive (found wanted : Primitive) : Matching :=
  require (found == wanted) (.primitive wanted found)

/-- Matches names in order. -/
def names (what : String) (found wanted : List String) : Matching :=
  require (found.map String.toLower == wanted.map String.toLower) (.names what)

/-- Matches shapes of values, given how types of values are matched and the name of what is wanted. -/
def shape (value : ValueType → ValueType → Matching) (wantedText : String) :
    (found wanted : ValueShape ValueType ResourceType) → Matching
  | .primitive a, .primitive b => primitive a b
  | .record a, .record b => do
    require (a.length == b.length) (.count b.length "fields" a.length)
    all (fun x y => do
      require (x.1.toLower == y.1.toLower) (.fieldName y.1 x.1)
      inside (.recordField x.1) (value x.2 y.2)) a b
  | .variant a, .variant b => do
    require (a.length == b.length) (.count b.length "cases" a.length)
    all (fun x y => do
      require (x.1.toLower == y.1.toLower) (.caseName y.1 x.1)
      optional (fun t u => inside (.variantCase x.1) (value t u)) (.caseWithoutType x.1)
        (.caseWithType x.1) x.2 y.2) a b
  | .list a, .list b | .option a, .option b => value a b
  | .tuple a, .tuple b => do
    require (a.length == b.length) (.count b.length "types" a.length)
    all (fun x y => inside (.tupleField x.2) (value x.1 y.1)) a.zipIdx b.zipIdx
  | .flags a, .flags b => names "flags" a b
  | .enumeration a, .enumeration b => names "enum" a b
  | .result ok err, .result ok' err' => do
    optional (fun t u => inside .ok (value t u)) (.noOutcome "ok") (.extraOutcome "ok") ok ok'
    optional (fun t u => inside .err (value t u)) (.noOutcome "err") (.extraOutcome "err") err err'
  | .own a, .own b | .borrow a, .borrow b => require (a.resource == b.resource) .resource
  | a, _ => .error (.sort wantedText a.text)

/-- Matches types of values, following references at most `depth` times. -/
def value (r : Registry) : (depth : Nat) → (found wanted : ValueType) → Matching
  | 0, _, _ => .ok ()
  | depth + 1, a, b => shape (value r depth) (r.wantedText b) (r.shapeOf a) (r.shapeOf b)

/-- Matches types of functions. -/
def function (r : Registry) (found wanted : FunctionType) : Matching := do
  require (found.params.length == wanted.params.length)
    (.count wanted.params.length "parameters" found.params.length)
  all (fun x y => do
    require (x.1.toLower == y.1.toLower) (.parameterName y.1 x.1)
    inside (.parameter x.1) (value r r.depth x.2 y.2)) found.params wanted.params
  optional (fun t u => inside .result (value r r.depth t u)) .noResult .extraResult
    found.result wanted.result

/-- Matches an item of a module. -/
def item (types : TypeSpace) (found wanted : ItemType) : Matching :=
  match found.mismatch? types wanted with
  | some m => .error (.item m)
  | none => .ok ()

/-- Matches types of modules. -/
def module (types : TypeSpace) (found wanted : ModuleType) : Matching := do
  found.imports.forM fun ((m, i), need) =>
    match wanted.imports.lookup (m, i) with
    | some given => inside (.moduleImport m i) (item types given need)
    | none => .error (.missingModuleImport m i)
  wanted.exports.forM fun (name, want) =>
    match found.exports.lookup name with
    | some offer => inside (.moduleExport name) (item types offer want)
    | none => .error (.missingExport name)

/-- The part at the end of a path, whose first steps are positions among parts that are wanted, in parts
that are given under the same names. -/
def follow (r : Registry) (given wanted : List (String × PartType)) : List Nat → Option PartType
  | [] => none
  | step :: path => do
    let (name, want) ← wanted[step]?
    let found ← given.lookup name
    match path, want, found with
    | [], _, _ => return found
    | _, .inst w, .inst f => follow r (r.inst f).exports (r.inst w).exports path
    | _, _, _ => none

/-- The resources that are given for the resources that are wanted at some places. -/
def resources (r : Registry) (given wanted : List (String × PartType)) (paths : ResourcePaths) :
    List (Nat × Nat) :=
  paths.filterMap fun (n, path) =>
    match follow r given wanted path with
    | some (.type _ (.resource t)) => some (n, t.resource)
    | _ => none

/-- Matches parts under names; the wanted ones are given with their resources replaced. -/
def parts (side : Side) (part : PartType → PartType → Matching)
    (given wanted : List (String × PartType)) : Matching := do
  wanted.forM fun (name, _) => require (given.lookup name).isSome (.missingPart side name)
  wanted.forM fun (name, want) =>
    match given.lookup name with
    | some found => inside (.part side name) (part found want)
    | none => .ok ()

/-- Matches types of instances, given how parts are matched. -/
def inst (part : PartType → PartType → Matching) (found wanted : InstanceType) : Matching := do
  wanted.exports.forM fun (name, _) =>
    require (found.exports.lookup name).isSome (.missingExport name)
  wanted.exports.forM fun (name, want) =>
    match found.exports.lookup name with
    | some offer => inside (.instanceExport name) (part offer want)
    | none => .ok ()

/-- Matches types of components, given how parts are matched in a registry. -/
def component (r : Registry) (part : Registry → PartType → PartType → Matching)
    (found wanted : ComponentType) : Matching := do
  let given := resources r wanted.imports found.imports found.imported
  let (imports, r) := r.replaceResources given found.imports
  parts .needed (part r) wanted.imports imports
  let (offered, r) := r.replaceResources given found.exports
  let (exports, r) := r.replaceResources (resources r offered wanted.exports wanted.defined) wanted.exports
  parts .offered (part r) offered exports

/-- Matches types of any sort, given how parts are matched in a registry. -/
def anyType (r : Registry) (part : Registry → PartType → PartType → Matching) :
    (found wanted : AnyType) → Matching
  | .resource a, .resource b => require (a.resource == b.resource) .resource
  | .value a, .value b => value r r.depth (.defined a) (.defined b)
  | .function a, .function b => function r (r.function a) (r.function b)
  | .inst a, .inst b => inst (part r) (r.inst a) (r.inst b)
  | .component a, .component b => component r part (r.component a) (r.component b)
  | a, b => .error (.sort b.text a.text)

/-- Matches parts, following references at most `depth` times. -/
def part (types : TypeSpace) : (depth : Nat) → Registry → (found wanted : PartType) → Matching
  | 0, _, _, _ => .ok ()
  | _ + 1, _, .module a, .module b => module types a b
  | _ + 1, r, .function a, .function b => function r (r.function a) (r.function b)
  | depth + 1, r, .type a _, .type b _ => anyType r (part types depth) a b
  | depth + 1, r, .inst a, .inst b => inst (part types depth r) (r.inst a) (r.inst b)
  | depth + 1, r, .component a, .component b =>
    component r (part types depth) (r.component a) (r.component b)
  | _, _, a, b => .error (.sort b.sort.text a.sort.text)

end Matching

end Wasm
end WasmLowering
