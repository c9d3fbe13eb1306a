/-
# Validation

A module is valid if its frame can be read, its items are well formed and refer
only to what precedes them, and its function bodies are well typed.  A component
is valid if the modules and components in it are, and its parts are well formed,
fit together and refer only to what precedes them.

Items are checked section by section as they are read.  The bodies come last, so
a body is looked at only in a module that is otherwise in order.
-/

import WasmLowering.Wasm.Component.Assemble
import WasmLowering.Wasm.Items

namespace WasmLowering
namespace Wasm

/-- A function body to check, and what it may refer to. -/
structure Job where
  declarations : Declarations
  signature : Signature
  content : Slice
  deriving DecidableEq, Repr

/-- What is open while payloads are checked. -/
inductive OpenLayer where
  | module (ctx : ModuleContext)
  | component (ctx : ComponentContext)
  deriving DecidableEq, Repr

/-- How far a check of payloads has come. -/
structure Inspection where
  /-- What the next header must announce, if a section tells it. -/
  expected : Option Layer
  /-- The open modules and components, innermost first. -/
  layers : List OpenLayer
  /-- The types that modules have defined so far. -/
  types : TypeSpace
  /-- The types that components have defined so far. -/
  registry : Registry
  jobs : List Job
  deriving DecidableEq, Repr

namespace Inspection

open ModuleContext (checkCount)

/-- Nothing is checked. -/
def start : Inspection := ⟨none, [], .empty, .empty, []⟩

/-- Opens a module or a component, which must be what is expected. -/
def enter (s : Inspection) (layer : Layer) (here : Nat) : Except Rejection Inspection := do
  if let some wanted := s.expected then
    unless wanted = layer do throw ⟨here, .layerMismatch wanted.text⟩
  let opened := match layer with
    | .module => .module (.start s.types)
    | .component => .component (.empty .component)
  return { s with expected := none, layers := opened :: s.layers }

/-- Changes the innermost module. -/
def inModule (s : Inspection) (f : ModuleContext → Except Rejection ModuleContext) :
    Except Rejection Inspection :=
  match s.layers with
  | .module ctx :: outer => do return { s with layers := .module (← f ctx) :: outer }
  | _ => .ok s

/-- The components among open layers. -/
def components (layers : List OpenLayer) : List ComponentContext :=
  layers.filterMap fun
    | .component ctx => some ctx
    | .module _ => none

/-- Changes the innermost component, which stands in others, and the types that are defined. -/
def inComponent (s : Inspection) (f : PartAssembly → Except Rejection PartAssembly) :
    Except Rejection Inspection :=
  match s.layers with
  | .component current :: outer => do
    let a ← f { current, outer := components outer, types := s.types, registry := s.registry }
    return { s with layers := .component a.current :: outer, types := a.types, registry := a.registry }
  | _ => .ok s

/-- The bodies of a module. -/
def jobsOf (ctx : ModuleContext) : List Job :=
  (ctx.defined.toList.zip ctx.bodies).map fun b => ⟨ctx.declarations, b.1, b.2⟩

/-- Closes the innermost module or component, which becomes a part of what is around it. -/
def leave (s : Inspection) (here : Nat) : Except Rejection Inspection :=
  match s.layers with
  | .module ctx :: .component parent :: outer => do
    let type ← ctx.type.mapError (Rejection.mk here)
    let parent := { parent with modules := parent.modules.push type }
    return { s with layers := .component parent :: outer, types := ctx.types,
                    jobs := s.jobs ++ jobsOf ctx }
  | .module ctx :: outer =>
    .ok { s with layers := outer, types := ctx.types, jobs := s.jobs ++ jobsOf ctx }
  | .component ctx :: outer => do
    let type ← (Assembling.finish ctx s.registry).mapError (Rejection.mk here)
    match outer with
    | .component parent :: outer =>
      let (registry, place) := s.registry.addComponent type
      let parent := { parent with components := parent.components.push place }
      return { s with layers := .component parent :: outer, registry }
    | outer => return { s with layers := outer }
  | [] => .ok s

/-- Checks the number of parts of a section of a component. -/
def checkParts (ctx : ComponentContext) (id count : Nat) : Except Violation Unit :=
  match id with
  | 2 | 5 => checkCount "instances" ComponentContext.partLimit (ctx.instanceCount + count)
  | 3 | 7 => checkCount "types" ModuleContext.itemLimit (ctx.typeCount + count)
  | 8 => checkCount "functions" ModuleContext.itemLimit (ctx.functionCount + count)
  | 11 => checkCount "exports" ModuleContext.itemLimit (ctx.exports.parts.size + count)
  | _ => .ok ()

/-- Takes a part of a component, by the id of its section: what adds it to the others. -/
def part : (id : Nat) → Reader (Assembling Unit)
  | 2 => do
    let i ← Reader.coreInstance
    return do
      let types := (← get).types
      Assembling.tryUpdate (·.instantiate types i)
  | 3 => return Assembling.coreType (← Reader.coreTypeDef)
  | 5 => return Assembling.addInstance (← Reader.partInstance)
  | 6 => return Assembling.addAlias (← Reader.partAlias)
  | 7 => return Assembling.define (← Reader.partTypeDef)
  | 8 => return Assembling.canonical (← Reader.canonFunction)
  | 10 => do
    let (name, t) ← Reader.importPart
    return Assembling.declarePart .needed name t
  | _ => do
    let ((name, sort, index), given) ← Reader.exportPart
    return Assembling.exportPart name sort index given

/-- Takes a part of a component and adds it to the others. -/
def addPart (id : Nat) (a : PartAssembly) : Reader PartAssembly := do
  let here ← Reader.position
  let add ← part id
  let (_, a) ← Reader.check here (add.run a)
  return a

/-- Checks a section of a component. -/
def parts (id count here : Nat) (content : Slice) (a : PartAssembly) : Except Rejection PartAssembly := do
  (checkParts a.current id count).mapError (Rejection.mk here)
  (items (addPart id) count a).run' content

/-- Checks that a component has room for another module or component. -/
def checkRoom (layer : Layer) (here : Nat) (a : PartAssembly) : Except Rejection PartAssembly := do
  let room := match layer with
    | .module => checkCount "modules" ComponentContext.partLimit (a.current.modules.size + 1)
    | .component => checkCount "components" ComponentContext.partLimit (a.current.components.size + 1)
  room.mapError (Rejection.mk here)
  return a

/-- Checks a payload. -/
def payload (s : Inspection) : Payload → Except Rejection Inspection
  | .version layer here => s.enter layer here
  | .items id count here content => s.inModule fun ctx => Items.checkSection ctx id count here content
  | .single 12 value here => s.inModule fun ctx => Items.checkDataCount ctx value here
  | .single _ value here => s.inModule fun ctx => do
    Items.start ctx value here
    return ctx
  | .bodies contents => s.inModule fun ctx => .ok { ctx with bodies := contents }
  | .parts id count here content => s.inComponent (parts id count here content)
  | .startPart here => .error ⟨here, .valuesDisabled⟩
  | .nested layer here => do
    let s ← s.inComponent (checkRoom layer here)
    return { s with expected := some layer }
  | .custom => .ok s
  | .other id here => .error ⟨here, .unknownSection id⟩
  | .finish here => s.leave here

end Inspection

namespace Validate

/-- The most locals, parameters included, that a function may have. -/
def localLimit : Nat := 50000

/-- Takes a group of locals of one type, behind the locals at hand. -/
def localGroup (types : TypeSpace) (locals : Array ValType) : Reader (Array ValType) := do
  let here ← Reader.position
  let count ← Reader.u32
  let type ← Reader.check here (types.resolveVal (← Reader.valType))
  if localLimit < locals.size + count then Reader.refuse here .tooManyLocals
  return locals ++ Array.replicate count type

/-- Takes groups of locals behind the locals at hand. -/
def localGroups (types : TypeSpace) : (count : Nat) → Array ValType → Reader (Array ValType)
  | 0, locals => return locals
  | count + 1, locals => do localGroups types count (← localGroup types locals)

/-- Takes the locals of a body, behind its parameters. -/
def locals (types : TypeSpace) (params : List ValType) : Reader (Array ValType) := do
  localGroups types (← Reader.u32) params.toArray

/-- Checks the body of a function. -/
def body (d : Declarations) (s : Signature) (content : Slice) : Except Rejection Unit := do
  let (locals, rest) ← (locals d.types s.params).run content
  Typing.body { declarations := d, locals, results := s.results } s.params.length (Decode.code rest)

end Validate

/-- Checks a module. -/
def validate (bytes : Bytes) : Except Rejection Unit := do
  let checked ← Payload.foldM Inspection.payload .start (Payload.ofBytes bytes)
  checked.jobs.forM fun job => Validate.body job.declarations job.signature job.content

end Wasm
end WasmLowering
