/-
# Memory layout

All linked modules share one memory.

| bytes      | content                                                   |
|------------|-----------------------------------------------------------|
| `0 .. 4`   | the highwater mark: where the next buffer goes            |
| `4 .. 128` | the trace window: the record that the hook is called with |
| `128 ..`   | string segments, one after the other in link order        |

The loader places each segment at the address it passes in the first global.
-/

namespace WasmLowering
namespace Layout

/-- The address of the highwater mark. -/
def highwater : Nat := 0

/-- The first byte of the trace window. -/
def traceStart : Nat := 4

/-- The byte after the trace window. -/
def traceEnd : Nat := 128

/-- The bytes that a trace record may take. -/
def traceBudget : Nat := traceEnd - traceStart

/-- The first byte that string segments may take. -/
def dataStart : Nat := traceEnd

/-- The index of the global that holds the address of a module's segment. -/
def dataStartGlobal : Nat := 0

/-- The index of the function that is called with a trace record. -/
def traceHook : Nat := 0

end Layout
end WasmLowering
