/-
# Digits

Numbers in a base up to sixteen, with digits of either case.
-/

namespace WasmLowering
namespace Text

/-- The value of a digit in a base up to sixteen. -/
def digit? (base : Nat) (c : Char) : Option Nat :=
  let value :=
    if '0' ≤ c ∧ c ≤ '9' then some (c.toNat - '0'.toNat)
    else if 'a' ≤ c ∧ c ≤ 'f' then some (c.toNat - 'a'.toNat + 10)
    else if 'A' ≤ c ∧ c ≤ 'F' then some (c.toNat - 'A'.toNat + 10)
    else none
  value.filter (· < base)

/-- The number with given digits, most significant first. -/
def ofDigits (base : Nat) (digits : List Nat) : Nat :=
  digits.foldl (fun acc d => acc * base + d) 0

/-- The number written by one or more digits. -/
def digits? (base : Nat) : List Char → Option Nat
  | [] => none
  | cs => (cs.mapM (digit? base)).map (ofDigits base)

end Text
end WasmLowering
