/-
# Versions

The version of an interface is three numbers, then perhaps a release that comes
before it and perhaps a note on how it was built: `1.2.3-rc.1+build.5`.  A number
has no leading zeros and 64 bits.
-/

import WasmLowering.Text.Digits

namespace WasmLowering
namespace Wasm
namespace Version

/-- A part of a version. -/
inductive Part where
  | major
  | minor
  | patch
  | preRelease
  | build
  deriving DecidableEq, Repr

/-- The name of a part. -/
def Part.text : Part → String
  | major => "major version number"
  | minor => "minor version number"
  | patch => "patch version number"
  | preRelease => "pre-release identifier"
  | build => "build metadata"

/-- Why a text is no version. -/
inductive Fault where
  | empty
  | cutShort (part : Part)
  | unexpected (part : Part) (found : Char)
  | unexpectedAfter (part : Part) (found : Char)
  | leadingZero (part : Part)
  | tooLarge (part : Part)
  | emptySegment (part : Part)
  deriving DecidableEq, Repr

/-- A character, or what stands for it in quotes. -/
def escaped (c : Char) : String :=
  if c = '\'' || c = '\\' then "\\" ++ c.toString
  else if c = '\t' then "\\t"
  else if c = '\n' then "\\n"
  else if c = '\r' then "\\r"
  else if c.toNat = 0 then "\\0"
  else if c.toNat < 0x20 || (0x7f ≤ c.toNat && c.toNat < 0xa0) then
    "\\u\x7b" ++ String.ofList (Nat.toDigits 16 c.toNat) ++ "\x7d"
  else c.toString

/-- A character in quotes. -/
def quoted (c : Char) : String := "'" ++ escaped c ++ "'"

/-- The wording of a fault. -/
def Fault.text : Fault → String
  | empty => "empty string, expected a semver version"
  | cutShort p => "unexpected end of input while parsing " ++ p.text
  | unexpected p c => "unexpected character " ++ quoted c ++ " while parsing " ++ p.text
  | unexpectedAfter p c => "unexpected character " ++ quoted c ++ " after " ++ p.text
  | leadingZero p => "invalid leading zero in " ++ p.text
  | tooLarge p => "value of " ++ p.text ++ " exceeds u64::MAX"
  | emptySegment p => "empty identifier segment in " ++ p.text

/-- The number that the numbers of a version stay below. -/
def bound : Nat := 18446744073709551616

/-- What follows a number, read behind one that started with digits of a value. -/
def afterDigits (p : Part) (value : Nat) : List Char → Except Fault (List Char)
  | [] => .ok []
  | c :: cs =>
    if c.isDigit then
      let value' := 10 * value + (c.toNat - '0'.toNat)
      if value = 0 then .error (.leadingZero p)
      else if bound ≤ value' then .error (.tooLarge p)
      else afterDigits p value' cs
    else .ok (c :: cs)

/-- What follows a number. -/
def afterNumber (p : Part) : List Char → Except Fault (List Char)
  | [] => .error (.cutShort p)
  | c :: cs =>
    if c.isDigit then afterDigits p (c.toNat - '0'.toNat) cs else .error (.unexpected p c)

/-- What follows the dot after a part. -/
def afterDot (p : Part) : List Char → Except Fault (List Char)
  | [] => .error (.cutShort p)
  | c :: cs => if c = '.' then .ok cs else .error (.unexpectedAfter p c)

/-- Whether a character may stand in a release or a note. -/
def isWordChar (c : Char) : Bool := c.isAlphanum || c = '-'

/-- Checks a segment between dots: a number of a release has no leading zeros. -/
def checkSegment (p : Part) (segment : List Char) : Except Fault Unit :=
  if segment.isEmpty then .error (.emptySegment p)
  else if p = .preRelease ∧ segment.all Char.isDigit ∧ 1 < segment.length
      ∧ segment.head? = some '0' then .error (.leadingZero p)
  else .ok ()

/-- What follows the segments of a release or a note, at most `limit` of them. -/
def afterSegments (p : Part) : (limit : Nat) → List Char → Except Fault (List Char)
  | 0, cs => .ok cs
  | limit + 1, cs => do
    checkSegment p (cs.takeWhile isWordChar)
    match cs.dropWhile isWordChar with
    | '.' :: rest => afterSegments p limit rest
    | rest => return rest

/-- What follows a release or a note after its mark, if there is one. -/
def afterMarked (p : Part) (mark : Char) : List Char → Except Fault (Part × List Char)
  | [] => .ok (.patch, [])
  | c :: cs =>
    if c = mark then (afterSegments p (cs.length + 1) cs).map fun rest => (p, rest)
    else .ok (.patch, c :: cs)

/-- Checks a version. -/
def check (cs : List Char) : Except Fault Unit := do
  if cs.isEmpty then throw .empty
  let cs ← afterNumber .major cs
  let cs ← afterDot .major cs
  let cs ← afterNumber .minor cs
  let cs ← afterDot .minor cs
  let cs ← afterNumber .patch cs
  let (p, cs) ← afterMarked .preRelease '-' cs
  let (q, cs) ← afterMarked .build '+' cs
  match cs with
  | [] => return ()
  | c :: _ => throw (.unexpectedAfter (if q = .build then q else p) c)

end Version
end Wasm
end WasmLowering
