/-
# Scalars

The values of a TOML document that are written without quotes or brackets:
truth values, integers, floats, dates and times.  Of a float only its range is
kept, and of a date or time nothing, since no setting is one.

What starts like a decimal integer with an underscore is taken for one.  Whether
it is one shows only when it is read, and not all values of a document are.
-/

import WasmLowering.Text.Digits

namespace WasmLowering
namespace Toml

/-- A value without parts. -/
inductive Scalar where
  | string (s : String)
  | boolean (b : Bool)
  | integer (n : Int)
  /-- A float; `fits` says that it is not too large for 64 bits. -/
  | float (fits : Bool)
  /-- A date, a time, or both. -/
  | moment
  /-- What is taken for a number and is none. -/
  | malformed
  deriving DecidableEq, Repr

namespace Scalar

open Text

/-- One or more digits, with single underscores between them. -/
def grouped? (base : Nat) : List Char → Option (List Nat)
  | [] => none
  | [c] => (digit? base c).map ([·])
  | c :: '_' :: cs => do return (← digit? base c) :: (← grouped? base cs)
  | c :: cs => do return (← digit? base c) :: (← grouped? base cs)

/-- The digits of a decimal number, which starts with zero only if it is zero. -/
def decimal? (cs : List Char) : Option (List Nat) := do
  let digits ← grouped? 10 cs
  guard (digits.length = 1 ∨ digits.head? ≠ some 0)
  return digits

/-- Whether a sign is a minus, and what follows the sign. -/
def splitSign : List Char → Bool × List Char
  | '-' :: cs => (true, cs)
  | '+' :: cs => (false, cs)
  | cs => (false, cs)

/-- An integer: decimal with an optional sign, or with a base and no sign. -/
def integer? (cs : List Char) : Option Int :=
  match cs with
  | '0' :: 'x' :: ds => (grouped? 16 ds).map fun d => (ofDigits 16 d : Int)
  | '0' :: 'o' :: ds => (grouped? 8 ds).map fun d => (ofDigits 8 d : Int)
  | '0' :: 'b' :: ds => (grouped? 2 ds).map fun d => (ofDigits 2 d : Int)
  | _ => do
    let (negative, ds) := splitSign cs
    let n : Int := ofDigits 10 (← decimal? ds)
    return if negative then -n else n

/-- The text before the first character with a property, and the text after that character. -/
def splitAt? (p : Char → Bool) (cs : List Char) : List Char × Option (List Char) :=
  match cs.dropWhile (!p ·) with
  | [] => (cs, none)
  | _ :: rest => (cs.takeWhile (!p ·), some rest)

/-- The exponent of a float, if one is written. -/
def exponent? : Option (List Char) → Option Int
  | none => some 0
  | some cs => do
    let (negative, ds) := splitSign cs
    let n : Int := ofDigits 10 (← grouped? 10 ds)
    return if negative then -n else n

/-- The least number that rounds to infinity in 64 bits. -/
def floatBound : Nat := Nat.pow 2 1024 - Nat.pow 2 970

/-- Whether `m * 10 ^ e` is below the bound; `m` has `digits` decimal digits. -/
def fitsFloat (m digits : Nat) (e : Int) : Bool :=
  if m = 0 ∨ digits + e < 300 then true
  else if digits + e > 1000 + digits then false
  else if 0 ≤ e then m * Nat.pow 10 e.toNat < floatBound
  else m < floatBound * Nat.pow 10 (-e).toNat

/-- A float with a fraction, an exponent, or both; or one of the special values. -/
def float? (cs : List Char) : Option Bool :=
  let (_, cs) := splitSign cs
  if cs = ['i', 'n', 'f'] ∨ cs = ['n', 'a', 'n'] then some true
  else do
    let (mantissa, exponent) := splitAt? (fun c => c = 'e' || c = 'E') cs
    let (whole, fraction) := splitAt? (· = '.') mantissa
    guard (exponent.isSome ∨ fraction.isSome)
    let whole ← decimal? whole
    let fraction ← match fraction with
      | some f => grouped? 10 f
      | none => some []
    let e ← exponent? exponent
    let digits := whole ++ fraction
    return fitsFloat (ofDigits 10 digits) digits.length (e - fraction.length)

/-- The number of days of a month. -/
def daysIn (year month : Nat) : Nat :=
  if month = 2 then
    if year % 4 = 0 ∧ (year % 100 ≠ 0 ∨ year % 400 = 0) then 29 else 28
  else if month ∈ [4, 6, 9, 11] then 30
  else 31

/-- What follows a date `yyyy-mm-dd`. -/
def afterDate? : List Char → Option (List Char)
  | y₁ :: y₂ :: y₃ :: y₄ :: '-' :: m₁ :: m₂ :: '-' :: d₁ :: d₂ :: rest => do
    let year ← digits? 10 [y₁, y₂, y₃, y₄]
    let month ← digits? 10 [m₁, m₂]
    let day ← digits? 10 [d₁, d₂]
    guard (1 ≤ month ∧ month ≤ 12 ∧ 1 ≤ day ∧ day ≤ daysIn year month)
    return rest
  | _ => none

/-- What follows hours and minutes `hh:mm`. -/
def afterMinutes? : List Char → Option (List Char)
  | h₁ :: h₂ :: ':' :: m₁ :: m₂ :: rest => do
    guard ((← digits? 10 [h₁, h₂]) < 24 ∧ (← digits? 10 [m₁, m₂]) < 60)
    return rest
  | _ => none

/-- What follows the fraction of a second, if one is written. -/
def afterFraction? : List Char → Option (List Char)
  | '.' :: cs => do
    guard (cs.head?.any Char.isDigit)
    return cs.dropWhile Char.isDigit
  | cs => some cs

/-- What follows a time `hh:mm` or `hh:mm:ss`, with an optional fraction of a second. -/
def afterTime? (cs : List Char) : Option (List Char) := do
  match ← afterMinutes? cs with
  | ':' :: s₁ :: s₂ :: rest =>
    guard ((← digits? 10 [s₁, s₂]) ≤ 60)
    afterFraction? rest
  | rest => return rest

/-- Whether a text is empty or an offset from universal time. -/
def isOffset : List Char → Bool
  | [] => true
  | ['Z'] => true
  | ['z'] => true
  | '+' :: cs => afterMinutes? cs = some []
  | '-' :: cs => afterMinutes? cs = some []
  | _ => false

/-- Whether a text is a date, a time, or a date and a time with an optional offset. -/
def isMoment (cs : List Char) : Bool :=
  match afterDate? cs with
  | some [] => true
  | some (c :: rest) => (c = 'T' || c = 't' || c = ' ') && (afterTime? rest).any isOffset
  | none => afterTime? cs = some []

/-- Whether every underscore of a text that follows a digit stands between digits of some base. -/
def groupsFit : List Char → Bool
  | [] => true
  | ['_'] => false
  | [_] => true
  | '_' :: c :: cs => (digit? 16 c).isSome && groupsFit (c :: cs)
  | c :: '_' :: cs => (digit? 16 c).isSome && groupsFit ('_' :: cs)
  | _ :: c :: cs => groupsFit (c :: cs)

/-- Whether a text is taken for an integer by its start: digits and an underscore, the first digit no
zero.  Nothing in it may tell of a float. -/
def startsInteger (cs : List Char) : Bool :=
  let ds := (splitSign cs).2
  (ds.head?.any fun c => c.isDigit && c ≠ '0') && (ds.dropWhile Char.isDigit).head? == some '_'
    && !ds.any (fun c => c = '.' || c = 'e' || c = 'E') && groupsFit ds

/-- The value of a text without quotes. -/
def bare? (cs : List Char) : Option Scalar :=
  if cs = ['t', 'r', 'u', 'e'] then some (.boolean true)
  else if cs = ['f', 'a', 'l', 's', 'e'] then some (.boolean false)
  else ((integer? cs).map .integer).or ((float? cs).map .float)
    |>.or (if isMoment cs then some .moment else none)
    |>.or (if startsInteger cs then some .malformed else none)

/-- Whether a character may stand in a value without quotes. -/
def isBareChar (c : Char) : Bool :=
  !c ∈ ['=', ',', '[', ']', '\x7b', '\x7d', ' ', '\t', '#', '\r', '\n']

/-- The text of a value without quotes, and what follows it.  A date and a time may stand apart by
one blank. -/
def span (cs : List Char) : List Char × List Char :=
  let text := cs.takeWhile isBareChar
  let rest := cs.dropWhile isBareChar
  match rest with
  | ' ' :: c :: more =>
    if afterDate? text = some [] ∧ c.isDigit then
      (text ++ ' ' :: (c :: more).takeWhile isBareChar, (c :: more).dropWhile isBareChar)
    else (text, rest)
  | _ => (text, rest)

end Scalar

end Toml
end WasmLowering
