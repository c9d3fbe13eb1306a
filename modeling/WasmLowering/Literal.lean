/-
# Integer literals

`parse_literal` and `parse_integer_text`.

A literal is written in decimal, or in hexadecimal after `0x` or `0X`, with an
optional minus sign in front and blanks around it.  At a width of `b` bits it
denotes a number in `lowest .. 2^b - 1`, where `lowest` is `-2^(b-1)` for the
signed widths and `0` for the others, and becomes the word whose low `b` bits
are that number modulo `2^b` and whose other bits are zero.

So `-1` and `255` are the same word at width `i8`.  Magnitudes from `2^127` on
are not numbers at any width.
-/

import WasmLowering.Fault
import WasmLowering.Text.Blank
import WasmLowering.Text.Digits
import WasmLowering.Value

namespace WasmLowering
namespace Literal

/-- The bound that every magnitude stays below, `2^127`. -/
def magnitudeBound : Nat := 0x80000000000000000000000000000000

/-- The number written without its sign: hexadecimal after `0x` or `0X`, else decimal. -/
def magnitude? (cs : List Char) : Option Nat :=
  let value := match cs with
    | '0' :: 'x' :: hex => Text.digits? 16 hex
    | '0' :: 'X' :: hex => Text.digits? 16 hex
    | decimal => Text.digits? 10 decimal
  value.filter (· < magnitudeBound)

/-- The number written with an optional minus sign. -/
def integer? : List Char → Option Int
  | '-' :: cs => (magnitude? cs).map fun n => -(n : Int)
  | cs => (magnitude? cs).map Int.ofNat

/-- The least number that a literal may denote at a width. -/
def lowest (w : Width) : Int :=
  if w.signed then -(w.modulus / 2 : Nat) else 0

/-- The greatest number that a literal may denote at a width. -/
def highest (w : Width) : Int := (w.modulus : Int) - 1

/-- The word of a number at a width: its residue modulo `w.modulus`. -/
def word (w : Width) (n : Int) : Value :=
  .ofNat w.kind (n % w.modulus).toNat

/-- The word that a literal denotes at a width. -/
def parse (w : Width) (text : String) : Except Fault Value :=
  if w = .bool then .error (.boolLiteral text)
  else match integer? (Text.trim text.toList) with
    | none => .error (.malformedLiteral w text)
    | some n =>
      if lowest w ≤ n ∧ n ≤ highest w then .ok (word w n) else .error (.literalRange w text)

/-- **A number at a width is a word of the kind of the width.** -/
@[simp] theorem kind_word (w : Width) (n : Int) : (word w n).kind = w.kind :=
  Value.kind_ofNat ..

/-- **The bits above the width are zero** in the word of a number. -/
theorem toNat_word_lt (w : Width) (n : Int) : (word w n).toNat < w.modulus := by
  have hpos : (0 : Int) < w.modulus := Int.natCast_pos.2 w.modulus_pos
  have hlt := Int.emod_lt_of_pos n hpos
  have hnn := Int.emod_nonneg n (Int.ne_of_gt hpos)
  simp only [word, Value.toNat_ofNat]
  exact Nat.lt_of_le_of_lt (Nat.mod_le _ _) (by omega)

end Literal
end WasmLowering
