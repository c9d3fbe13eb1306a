/-
# Summaries describe modules

A loader takes what it knows of a module from its summary, not from its bytes.
The summary is filled beside the module, from the scope of the unit and from
counters of its own.  It agrees with what the bytes decode to:

| summary          | outline of the bytes                                       |
|------------------|------------------------------------------------------------|
| imports          | the import section, entry by entry                         |
| exports          | the names in the export section, the segment's size last   |
| `functionCount`  | imported and defined functions, each of these with a body  |
| `globalCount`    | imported and defined globals                               |
| `dataSize`       | the bytes of the one data segment                          |

What the bytes decode to is the module (`Module.decode_encode`), so it is left that
the counters count the parts of the module (`Linked.summary_assemble`).
-/

import WasmLowering.Proofs.Outline
import WasmLowering.Proofs.Provision

namespace WasmLowering

open Wasm

namespace Wasm

namespace Outline

variable (o : Outline)

/-- The types of the imported functions. -/
def importedFunctions : List Nat := o.imports.filterMap (·.entity.type?)

/-- The kinds of the imported globals. -/
def importedGlobals : List Kind := o.imports.filterMap (·.entity.kind?)

end Outline

/-- What a loader needs to know of a module under a name. -/
def Module.summary (m : Module) (name : String) : Summary where
  name
  imports := m.imports
  exports := m.exports.map Export.name
  dataSize := m.data.length
  functionCount := m.functionTypes.length
  globalCount := m.globalKinds.length

end Wasm

/-- A summary tells what is in an outline. -/
structure Summary.Describes (s : Summary) (o : Outline) : Prop where
  imports : o.imports = s.imports.map Import.entry
  exports : o.exports.map Export.name = s.exports
  lastExport : s.exports.getLast? = some Loader.dataSize
  functions : o.importedFunctions.length + o.functions.length = s.functionCount
  bodies : o.bodies.length = o.functions.length
  globals : o.importedGlobals.length + o.globals.length = s.globalCount
  segment : ∃ address data, o.segments = [(address, data)] ∧ data.length = s.dataSize

namespace Wasm.Module

variable {m : Module}

/-- **The summary of a module describes its outline,** if each defined function has a body and the size of the
segment is exported last. -/
theorem describes_outline (hbodies : m.bodies.length = m.functions.length)
    (hlast : (m.exports.map Export.name).getLast? = some Loader.dataSize) (name : String) :
    (m.summary name).Describes m.outline where
  imports := rfl
  exports := rfl
  lastExport := hlast
  functions := by
    have himported : m.outline.importedFunctions = m.importedFunctions := List.filterMap_map
    rw [himported]
    exact List.length_append.symm
  bodies := (List.length_map _).trans hbodies
  globals := by
    have himported : m.outline.importedGlobals = m.importedGlobals := List.filterMap_map
    rw [himported]
    show m.importedGlobals.length + m.globals.length = (m.importedGlobals ++ m.globals.map GlobalDef.kind).length
    rw [List.length_append, List.length_map]
  segment := ⟨_, _, rfl, rfl⟩

end Wasm.Module

section Assembled

variable {minPages : Nat} {config : Config} {units : List SourceUnit} {state next : LinkState} {u : SourceUnit}
  {a : Assembled}

/-- **What is told of an assembled unit:** the counts come from the scope. -/
theorem summary_of_assemble (ha : assemble config state u = .ok (a, next)) :
    ∃ scope, Scope.ofUnit state u = .ok scope ∧
      a.summary =
        { a.code.summary u.name with
          functionCount := scope.functions.length
          globalCount := scope.globals.length + 1 } := by
  obtain ⟨scope, _, segment, _, _, hs, -, -, -, hcode, -, hsummary, -⟩ := assemble_eq_ok ha
  refine ⟨scope, hs, ?_⟩
  rw [hsummary, hcode, Module.summary, segment.length_bytes]

/-- **The summary of an assembled unit is that of its module,** over every state that is reached. -/
theorem Linked.summary_assemble (h : Linked minPages units state)
    (ha : assemble config state u = .ok (a, next)) : a.summary = a.code.summary u.name := by
  obtain ⟨scope, hs, hsummary⟩ := summary_of_assemble ha
  have hm := isModuleOf_assemble h.aligned hs ha
  rw [hsummary, ← hm.length_functionTypes h.aligned hs, ← hm.length_globalKinds h.aligned hs]
  rfl

/-- **An assembled unit exports the size of its segment last.** -/
theorem lastExport_of_assemble (ha : assemble config state u = .ok (a, next)) :
    (a.code.exports.map Export.name).getLast? = some Loader.dataSize := by
  obtain ⟨_, _, _, _, _, -, -, -, he, hcode, -⟩ := assemble_eq_ok ha
  obtain ⟨own, -, rfl⟩ := Assembly.exports_eq_ok he
  rw [hcode, List.map_append]
  exact List.getLast?_concat

/-- **Summaries describe modules.**  Whatever units have been assembled before, by whatever settings, the bytes
of a unit that is assembled next decode, and its summary tells what they decode to. -/
theorem Linked.summary_describes (h : Linked minPages units state)
    (ha : assemble config state u = .ok (a, next)) :
    ∃ o, Outline.decode a.bytes = some o ∧ a.summary.Describes o := by
  refine ⟨a.code.outline, a.code.decode_encode, ?_⟩
  rw [h.summary_assemble ha]
  exact Module.describes_outline (length_bodies_of_assemble ha) (lastExport_of_assemble ha) u.name

end Assembled

/-- **The summary of the client** counts the hook, the function of the counter and the tally.  Its data are two
names that records of the trace tell. -/
theorem Tally.summary_describes_client :
    ∃ a next o, assemble { traced := true } ((LinkState.base 16).extend counter) client = .ok (a, next) ∧
      a.summary.exports = ["tally", "data_size"] ∧ a.summary.functionCount = 3 ∧ a.summary.globalCount = 4 ∧
      a.summary.dataSize = 13 ∧ Outline.decode a.bytes = some o ∧ a.summary.Describes o := by
  obtain ⟨a, next, ha, hexports, hfunctions, hglobals, hdata⟩ : ∃ a next,
      assemble { traced := true } ((LinkState.base 16).extend counter) client = .ok (a, next) ∧
      a.summary.exports = ["tally", "data_size"] ∧ a.summary.functionCount = 3 ∧ a.summary.globalCount = 4 ∧
      a.summary.dataSize = 13 := ⟨_, _, rfl, by decide +kernel⟩
  obtain ⟨o, hdecode, hdescribes⟩ := linked_counter.summary_describes ha
  exact ⟨a, next, o, ha, hexports, hfunctions, hglobals, hdata, hdecode, hdescribes⟩

end WasmLowering
