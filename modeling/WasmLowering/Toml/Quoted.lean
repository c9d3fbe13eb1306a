/-
# Quoted text

Text in double quotes knows escapes, text in single quotes does not.  Either may
stand between triple quotes and then span lines; a line break right after the
opening quotes is no part of the text, and up to two quotes may stand right
before the closing ones.

Every function here takes what follows the opening quotes and gives the text
and what follows the closing quotes.
-/

import WasmLowering.Text.Digits

namespace WasmLowering
namespace Toml
namespace Quoted

/-- Whether a character may stand for itself in text and comments: no control character but the
tab. -/
def isTextChar (c : Char) : Bool := c = '\t' || (0x20 ≤ c.toNat && c.toNat ≠ 0x7f)

/-- The character with a number, unless the number is a surrogate or too large. -/
def char? (n : Nat) : Option Char :=
  if n.isValidChar then some (Char.ofNat n) else none

/-- The character written by hexadecimal digits. -/
def hexChar? (cs : List Char) : Option Char := do char? (← Text.digits? 16 cs)

/-- Escapes of one letter. -/
def letterEscape? : Char → Option Char
  | 'b' => some '\x08'
  | 't' => some '\t'
  | 'n' => some '\n'
  | 'f' => some '\x0c'
  | 'r' => some '\r'
  | 'e' => some '\x1b'
  | '"' => some '"'
  | '\\' => some '\\'
  | _ => none

/-- Adds a character to a text that was taken. -/
def add (c : Char) (r : List Char × List Char) : List Char × List Char := (c :: r.1, r.2)

/-- Whether blanks and a line break follow. -/
def endsLine (cs : List Char) : Bool :=
  match cs.dropWhile fun c => c = ' ' || c = '\t' with
  | '\n' :: _ => true
  | '\r' :: '\n' :: _ => true
  | _ => false

/-- Text in double quotes. -/
def basic : List Char → Option (List Char × List Char)
  | '"' :: cs => some ([], cs)
  | '\\' :: 'x' :: a :: b :: cs => do return add (← hexChar? [a, b]) (← basic cs)
  | '\\' :: 'u' :: a :: b :: c :: d :: cs => do return add (← hexChar? [a, b, c, d]) (← basic cs)
  | '\\' :: 'U' :: a :: b :: c :: d :: e :: f :: g :: h :: cs => do
    return add (← hexChar? [a, b, c, d, e, f, g, h]) (← basic cs)
  | '\\' :: c :: cs => do return add (← letterEscape? c) (← basic cs)
  | c :: cs => do
    guard (isTextChar c ∧ c ≠ '\\')
    return add c (← basic cs)
  | [] => none

/-- Text in single quotes. -/
def literal : List Char → Option (List Char × List Char)
  | '\'' :: cs => some ([], cs)
  | c :: cs => do
    guard (isTextChar c)
    return add c (← literal cs)
  | [] => none

/-- Text between three double quotes; `skip` says that blanks and line breaks are being left out
after a backslash at the end of a line. -/
def longBasic (skip : Bool) : List Char → Option (List Char × List Char)
  | '"' :: '"' :: '"' :: '"' :: '"' :: cs => some (['"', '"'], cs)
  | '"' :: '"' :: '"' :: '"' :: cs => some (['"'], cs)
  | '"' :: '"' :: '"' :: cs => some ([], cs)
  | '\\' :: 'x' :: a :: b :: cs => do return add (← hexChar? [a, b]) (← longBasic false cs)
  | '\\' :: 'u' :: a :: b :: c :: d :: cs => do
    return add (← hexChar? [a, b, c, d]) (← longBasic false cs)
  | '\\' :: 'U' :: a :: b :: c :: d :: e :: f :: g :: h :: cs => do
    return add (← hexChar? [a, b, c, d, e, f, g, h]) (← longBasic false cs)
  | '\\' :: c :: cs =>
    if endsLine (c :: cs) then longBasic true (c :: cs)
    else do return add (← letterEscape? c) (← longBasic false cs)
  | '\r' :: '\n' :: cs =>
    if skip then longBasic true cs else do return add '\n' (← longBasic false cs)
  | c :: cs =>
    if skip && (c = ' ' || c = '\t' || c = '\n') then longBasic true cs
    else do
      guard ((isTextChar c ∧ c ≠ '\\') ∨ c = '\n')
      return add c (← longBasic false cs)
  | [] => none

/-- Text between three single quotes. -/
def longLiteral : List Char → Option (List Char × List Char)
  | '\'' :: '\'' :: '\'' :: '\'' :: '\'' :: cs => some (['\'', '\''], cs)
  | '\'' :: '\'' :: '\'' :: '\'' :: cs => some (['\''], cs)
  | '\'' :: '\'' :: '\'' :: cs => some ([], cs)
  | '\r' :: '\n' :: cs => do return add '\n' (← longLiteral cs)
  | c :: cs => do
    guard (isTextChar c ∨ c = '\n')
    return add c (← longLiteral cs)
  | [] => none

/-- Leaves out a line break at the front. -/
def skipBreak : List Char → List Char
  | '\n' :: cs => cs
  | '\r' :: '\n' :: cs => cs
  | cs => cs

/-- Quoted text on one line, from its opening quote on. -/
def line? : List Char → Option (List Char × List Char)
  | '"' :: cs => basic cs
  | '\'' :: cs => literal cs
  | _ => none

/-- Quoted text of any form, from its opening quotes on. -/
def any? : List Char → Option (List Char × List Char)
  | '"' :: '"' :: '"' :: cs => longBasic false (skipBreak cs)
  | '\'' :: '\'' :: '\'' :: cs => longLiteral (skipBreak cs)
  | cs => line? cs

end Quoted
end Toml
end WasmLowering
