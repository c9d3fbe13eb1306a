/-
# Code for casts

`lower_cast`.

A cast keeps a number modulo two to the bits of the target width.

| from, to                      | code                                   |
|-------------------------------|----------------------------------------|
| equal bits                    | none                                   |
| 64 bits to fewer              | take the low half, then cut to the bits |
| fewer to 64, unsigned source  | extend with zeros                      |
| 32 signed to 64               | extend with the sign                   |
| unsigned to fewer unsigned    | cut to the bits                        |
| unsigned to more unsigned     | none                                   |

There is no code for a narrow signed source, whose sign its word does not show,
nor between different widths up to 32 bits if either is signed.  Truth values
are not numbers and are never cast.
-/

import WasmLowering.Lower.Operator

namespace WasmLowering

open Wasm

/-- Code that casts the topmost word from one width to another. -/
def Width.castTo (source target : Width) : Except Fault Code :=
  if source = .bool ∨ target = .bool then .error (.boolCast source target)
  else if source.bits = target.bits then .ok []
  else match source.kind, target.kind with
    | .i64, _ => .ok (.convert .wrap :: target.mask)
    | .i32, .i64 =>
      if !source.signed then .ok [.convert .extendU]
      else if source = .i32 then .ok [.convert .extendS]
      else .error (.missingCast source target)
    | .i32, .i32 =>
      if source.signed || target.signed then .error (.missingCast source target)
      else if source.bits < target.bits then .ok []
      else .ok target.mask

end WasmLowering
