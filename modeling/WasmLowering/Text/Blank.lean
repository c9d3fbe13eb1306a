/-
# Blank characters

The characters with the property `White_Space`, twenty-five code points in ten
ranges, and the removal of blanks around a text.
-/

namespace WasmLowering
namespace Text

/-- The code points with the property `White_Space`, as inclusive ranges. -/
def blankRanges : List (Nat × Nat) :=
  [(0x09, 0x0d), (0x20, 0x20), (0x85, 0x85), (0xa0, 0xa0), (0x1680, 0x1680), (0x2000, 0x200a),
    (0x2028, 0x2029), (0x202f, 0x202f), (0x205f, 0x205f), (0x3000, 0x3000)]

/-- Whether a character is blank. -/
def isBlank (c : Char) : Bool :=
  blankRanges.any fun r => r.1 ≤ c.toNat && c.toNat ≤ r.2

/-- A text without the blanks at its two ends. -/
def trim (cs : List Char) : List Char :=
  ((cs.dropWhile isBlank).reverse.dropWhile isBlank).reverse

example : (blankRanges.map fun r => r.2 + 1 - r.1).sum = 25 := by decide

example : isBlank ' ' ∧ isBlank '\t' ∧ isBlank '\u3000' ∧ ¬ isBlank '\u200b' := by decide

end Text
end WasmLowering
