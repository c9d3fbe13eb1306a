/-
# Reading manifests

A loader that has the manifest of a program needs nothing else of its modules'
summaries: it can read them off the text.  Fields are found by their names, so
their order does not matter, and what an import brings in is told by its `kind`:

| `kind`     | field of its own | brings in                          |
|------------|------------------|------------------------------------|
| `function` | `type_index`     | a function of that type            |
| `global`   | `value_kind`     | a global of that kind              |
| `memory`   | `min_pages`      | a memory of that many pages        |

Each reader gives back what the writer of the same part was given, part by part
up to the list of summaries (`readManifest?_manifest`).  So programs with the same
manifest have the same summaries.
-/

import WasmLowering.Link
import WasmLowering.Proofs.JsonReading

namespace WasmLowering

/-! ## Parts of JSON values -/

namespace Json

variable {α : Type}

/-- A string. -/
def text? : Json → Option String
  | str s => some s
  | _ => none

/-- A number. -/
def number? : Json → Option Nat
  | num n => some n
  | _ => none

/-- A truth value. -/
def flag? : Json → Option Bool
  | bool b => some b
  | _ => none

/-- The items of an array, each by a reader. -/
def items? (read : Json → Option α) : Json → Option (List α)
  | arr vs => vs.mapM read
  | _ => none

/-- The first field of a name in an object, by a reader. -/
def field? (name : String) (read : Json → Option α) : Json → Option α
  | obj fs => (fs.lookup name).bind read
  | _ => none

/-- **Items can be read back** if each of them can. -/
theorem items?_arr {read : Json → Option α} {write : α → Json} (h : ∀ a, read (write a) = some a) (as : List α) :
    (arr (as.map write)).items? read = some as := by
  rw [items?]
  induction as with
  | nil => rfl
  | cons a as ih =>
    rw [List.map_cons, List.mapM_cons, h, ih]
    rfl

end Json

/-! ## Parts of summaries -/

/-- The kind with a name. -/
def Kind.ofLabel? (text : String) : Option Kind := [Kind.i32, Kind.i64].find? fun k => k.label == text

/-- What an import brings in, told by its fields. -/
def Entity.read? (v : Json) : Option Entity := do
  let kind ← v.field? "kind" Json.text?
  if kind = "function" then (v.field? "type_index" Json.number?).map function
  else if kind = "global" then ((v.field? "value_kind" Json.text?).bind Kind.ofLabel?).map global
  else if kind = "memory" then (v.field? "min_pages" Json.number?).map memory
  else none

/-- An import. -/
def Import.read? (v : Json) : Option Import := do
  let owner ← v.field? "module" Json.text?
  let name ← v.field? "name" Json.text?
  let entity ← Entity.read? v
  let exported ← v.field? "exported" Json.flag?
  return { owner, name, entity, exported }

/-- A summary. -/
def Summary.read? (v : Json) : Option Summary := do
  let name ← v.field? "name" Json.text?
  let imports ← v.field? "imports" (Json.items? Import.read?)
  let exports ← v.field? "exports" (Json.items? Json.text?)
  let dataSize ← v.field? "data_size" Json.number?
  let functionCount ← v.field? "function_count" Json.number?
  let globalCount ← v.field? "global_count" Json.number?
  return { name, imports, exports, dataSize, functionCount, globalCount }

/-- The summaries that a text is the manifest of. -/
def readManifest? (text : String) : Option (List Summary) :=
  (Json.read? text).bind (Json.items? Summary.read?)

/-! ## What is written is read back -/

/-- **The fields of an import tell what it brings in.** -/
theorem Entity.read?_toJson (i : Import) : Entity.read? i.toJson = some i.entity := by
  obtain ⟨owner, name, entity, exported⟩ := i
  cases entity with
  | function type => rfl
  | global kind => cases kind <;> rfl
  | memory minPages => rfl

theorem Import.read?_toJson (i : Import) : Import.read? i.toJson = some i := by
  rw [Import.read?, Entity.read?_toJson]
  obtain ⟨owner, name, entity, exported⟩ := i
  cases entity <;> rfl

theorem Summary.read?_toJson (s : Summary) : Summary.read? s.toJson = some s := by
  have htext (t : String) : (Json.str t).text? = some t := rfl
  have himports : s.toJson.field? "imports" (Json.items? Import.read?) = some s.imports :=
    Json.items?_arr Import.read?_toJson s.imports
  have hexports : s.toJson.field? "exports" (Json.items? Json.text?) = some s.exports :=
    Json.items?_arr htext s.exports
  rw [Summary.read?, himports, hexports]
  rfl

/-- **A manifest can be read back.** -/
theorem readManifest?_manifest (summaries : List Summary) :
    readManifest? (manifest summaries) = some summaries := by
  rw [readManifest?, manifest, Json.read?_pretty]
  exact Json.items?_arr Summary.read?_toJson summaries

/-- **The manifest determines the summaries.**  From the text of a program's manifest the summaries of its
modules can be read, in the order of instantiation and with every field, whatever characters the names of units
and symbols are made of.  So two programs have the same manifest just if they have the same summaries. -/
theorem Program.manifest_determines (p : Program) :
    readManifest? p.manifest = some (p.modules.map Assembled.summary) ∧
    ∀ q : Program, p.manifest = q.manifest ↔
      p.modules.map Assembled.summary = q.modules.map Assembled.summary := by
  have hread (q : Program) : readManifest? q.manifest = some (q.modules.map Assembled.summary) :=
    readManifest?_manifest _
  refine ⟨hread p, fun q => ⟨fun h => ?_, fun h => ?_⟩⟩
  · have hq := hread q
    rw [← h, hread p] at hq
    exact Option.some.inj hq
  · rw [Program.manifest, Program.manifest, h]

end WasmLowering
