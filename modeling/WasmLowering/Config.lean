/-
# Settings

`Config` and `CodegenConfig`.

Three settings steer a compilation: whether functions are traced, whether the
emitted modules are checked, and how many pages the shared memory has at least.
-/

namespace WasmLowering

/-- The settings of a compilation. -/
structure Config where
  /-- Whether functions write trace records. -/
  traced : Bool := false
  /-- Whether emitted modules are validated. -/
  validated : Bool := true
  /-- The least number of pages of the shared memory. -/
  minPages : Nat := 16
  deriving DecidableEq, Repr

namespace Config

/-- The settings of an empty configuration. -/
def default : Config := {}

instance : Inhabited Config := ⟨default⟩

/-- The name under which a project keeps its configuration. -/
def fileName : String := "flatwasm.toml"

/-- The settings with tracing switched on or off. -/
def withTracing (c : Config) (on : Bool) : Config := { c with traced := on }

end Config

end WasmLowering
