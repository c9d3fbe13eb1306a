/-
# Variable-length integers

A number is written seven bits at a time, lowest first, and every byte but the
last has its top bit set.  A signed number ends at the first byte whose bit 6 is
the sign of all that follows, so each number is written as short as it can be.
-/

import WasmLowering.Bytes

namespace WasmLowering
namespace Wasm
namespace Leb128

/-- The bytes of a natural number. -/
def unsigned (n : Nat) : Bytes :=
  if n < 128 then [n.toUInt8] else (n % 128 + 128).toUInt8 :: unsigned (n / 128)
termination_by n
decreasing_by omega

/-- The bytes of an integer in two's complement. -/
def signed (n : Int) : Bytes :=
  if -64 ≤ n ∧ n < 64 then [(n % 128).toNat.toUInt8]
  else (n % 128 + 128).toNat.toUInt8 :: signed (n / 128)
termination_by n.natAbs
decreasing_by omega

end Leb128
end Wasm
end WasmLowering
