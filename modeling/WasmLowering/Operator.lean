/-
# Binary operators

`Op`, with `is_comparison` and `needs_sign_aware_instruction`.

The operators of the source language.  The operators `addW`, `subW`, `multW`
and `divW` wrap by name; the machine's arithmetic wraps in either spelling.
-/

namespace WasmLowering

/-- A binary operator of the source language. -/
inductive Operator where
  | add
  | addW
  | sub
  | subW
  | mult
  | multW
  | div
  | divW
  | mod
  | bOr
  | bAnd
  | bXor
  | bShiftL
  | bShiftR
  | bNot
  | eq
  | neq
  | lt
  | lte
  | gt
  | gte
  | and
  | or
  | xor
  | not
  deriving DecidableEq, Repr, Inhabited

namespace Operator

/-- The name of an operator in messages. -/
def text : Operator → String
  | add => "Add"
  | addW => "AddW"
  | sub => "Sub"
  | subW => "SubW"
  | mult => "Mult"
  | multW => "MultW"
  | div => "Div"
  | divW => "DivW"
  | mod => "Mod"
  | bOr => "BOr"
  | bAnd => "BAnd"
  | bXor => "BXor"
  | bShiftL => "BShiftL"
  | bShiftR => "BShiftR"
  | bNot => "BNot"
  | eq => "Eq"
  | neq => "Neq"
  | lt => "Lt"
  | lte => "Lte"
  | gt => "Gt"
  | gte => "Gte"
  | and => "And"
  | or => "Or"
  | xor => "Xor"
  | not => "Not"

/-- Whether the result is a truth value, `0` or `1`. -/
def isComparison : Operator → Bool
  | eq | neq | lt | lte | gt | gte => true
  | _ => false

/-- Whether the result on two's complement operands depends on their sign. -/
def isSignAware : Operator → Bool
  | div | divW | mod | bShiftR | lt | lte | gt | gte => true
  | _ => false

end Operator

end WasmLowering
