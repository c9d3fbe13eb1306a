/-
# Manifests

`LinkedProgram::manifest`.

The manifest of a linked program tells a loader what each module needs and
offers, in the order of instantiation, as indented JSON.
-/

import WasmLowering.Assembly
import WasmLowering.Text.Json

namespace WasmLowering

/-- The fields that say what an import brings in. -/
def Entity.fields : Entity → List (String × Json)
  | function type => [("kind", .str "function"), ("type_index", .num type)]
  | global kind => [("kind", .str "global"), ("value_kind", .str kind.label)]
  | memory minPages => [("kind", .str "memory"), ("min_pages", .num minPages)]

/-- An import in a manifest. -/
def Import.toJson (i : Import) : Json :=
  .obj ([("module", .str i.owner), ("name", .str i.name)] ++ i.entity.fields
    ++ [("exported", .bool i.exported)])

/-- The summary of a module in a manifest. -/
def Summary.toJson (s : Summary) : Json :=
  .obj
    [ ("name", .str s.name),
      ("imports", .arr (s.imports.map Import.toJson)),
      ("exports", .arr (s.exports.map .str)),
      ("data_size", .num s.dataSize),
      ("function_count", .num s.functionCount),
      ("global_count", .num s.globalCount) ]

/-- The manifest of modules, by their summaries. -/
def manifest (summaries : List Summary) : String :=
  (Json.arr (summaries.map Summary.toJson)).pretty

end WasmLowering
