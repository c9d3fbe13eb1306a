/-
# Reading JSON

The text of a JSON value can be read back.  Reading has two stages.  Each takes
one item after the other and keeps no more than it needs to go on:

| stage   | takes      | keeps                                         | gives   |
|---------|------------|-----------------------------------------------|---------|
| `scan`  | characters | the word, number or string that it is within  | tokens  |
| `build` | tokens     | the arrays and objects that are still open    | a value |

Neither knows how a text is laid out: blanks may stand between any two tokens,
and a string may use any escape.  Only an escape that is half of a pair is
refused, since it is no character.

`Json.read?_pretty` says that reading gives back what was written.  It goes
through the tokens of the value: the written text scans to them, whatever follows
it (`writes_render`), and they build the value, whatever is open around it
(`build_tokens`).
-/

import WasmLowering.Proofs.LiteralGrammar
import WasmLowering.Text.Json

namespace WasmLowering
namespace Json

open Text (digit? IsDigit Numeral)

/-! ## Tokens -/

/-- A token of a JSON text. -/
inductive Token where
  | openArray
  | closeArray
  | openObject
  | closeObject
  | comma
  | colon
  | bool (b : Bool)
  | num (n : Nat)
  | str (s : String)
  deriving DecidableEq, Repr

/-- What a scan is within. -/
inductive Within where
  | blanks
  /-- One of the two words, with the letters that are still to come. -/
  | word (b : Bool) (left : List Char)
  /-- A number, by its digits so far. -/
  | number (n : Nat)
  /-- A string, with the characters so far. -/
  | string (cs : List Char)
  /-- A string, behind a backslash. -/
  | escape (cs : List Char)
  /-- A string, within the number of a character that has this many digits left. -/
  | code (cs : List Char) (left n : Nat)
  deriving DecidableEq, Repr

/-- The blanks between tokens. -/
def isBlank (c : Char) : Bool := c = ' ' || c = '\n' || c = '\r' || c = '\t'

/-- The token that is one mark. -/
def mark? (c : Char) : Option Token :=
  if c = '[' then some .openArray
  else if c = ']' then some .closeArray
  else if c = '\x7b' then some .openObject
  else if c = '\x7d' then some .closeObject
  else if c = ',' then some .comma
  else if c = ':' then some .colon
  else none

/-- The character that a letter behind a backslash stands for. -/
def unescape? (c : Char) : Option Char :=
  if c = '"' ∨ c = '\\' ∨ c = '/' then some c
  else if c = 'b' then some '\x08'
  else if c = 't' then some '\t'
  else if c = 'n' then some '\n'
  else if c = 'f' then some '\x0c'
  else if c = 'r' then some '\r'
  else none

/-- The first character of a token, or a blank: the tokens that are complete with it, and what follows. -/
def start (c : Char) : Option (List Token × Within) :=
  if isBlank c then some ([], .blanks)
  else if c = '"' then some ([], .string [])
  else if c = 't' then some ([], .word true ['r', 'u', 'e'])
  else if c = 'f' then some ([], .word false ['a', 'l', 's', 'e'])
  else
    match digit? 10 c with
    | some d => some ([], .number d)
    | none => (mark? c).map fun t => ([t], .blanks)

/-- A character: the tokens that are complete with it, and what follows. -/
def step : Within → Char → Option (List Token × Within)
  | .blanks, c => start c
  | .word _ [], _ => none
  | .word b [l], c => if c = l then some ([.bool b], .blanks) else none
  | .word b (l :: ls), c => if c = l then some ([], .word b ls) else none
  | .number n, c =>
    match digit? 10 c with
    | some d => some ([], .number (n * 10 + d))
    | none => (start c).map fun r => (.num n :: r.1, r.2)
  | .string cs, c =>
    if c = '"' then some ([.str (String.ofList cs)], .blanks)
    else if c = '\\' then some ([], .escape cs)
    else if c.toNat < 0x20 then none
    else some ([], .string (cs ++ [c]))
  | .escape cs, c =>
    if c = 'u' then some ([], .code cs 4 0)
    else (unescape? c).map fun d => ([], .string (cs ++ [d]))
  | .code cs left n, c =>
    match digit? 16 c with
    | none => none
    | some d =>
      if 1 < left then some ([], .code cs (left - 1) (n * 16 + d))
      else if (n * 16 + d).isValidChar then some ([], .string (cs ++ [Char.ofNat (n * 16 + d)]))
      else none

/-- The tokens of a text, from what the text goes on within. -/
def scan : Within → List Char → Option (List Token)
  | .blanks, [] => some []
  | .number n, [] => some [.num n]
  | _, [] => none
  | w, c :: cs => (step w c).bind fun r => (scan r.2 cs).map (r.1 ++ ·)

/-! ## Values -/

/-- An array or object that is open, with what stands before the value at hand. -/
inductive Open where
  | items (before : List Json)
  | field (before : List (String × Json)) (key : String)

/-- What may come next. -/
inductive Expects where
  | value (around : List Open)
  /-- A value, or the end of an array that has none yet. -/
  | firstItem (around : List Open)
  | key (before : List (String × Json)) (around : List Open)
  /-- A key, or the end of an object that has none yet. -/
  | firstKey (around : List Open)
  | colon (before : List (String × Json)) (key : String) (around : List Open)
  /-- What is behind a value: a comma, an end, or nothing more. -/
  | rest (v : Json) (around : List Open)

/-- A token where a value is expected. -/
def acceptValue (around : List Open) : Token → Option Expects
  | .bool b => some (.rest (.bool b) around)
  | .num n => some (.rest (.num n) around)
  | .str s => some (.rest (.str s) around)
  | .openArray => some (.firstItem around)
  | .openObject => some (.firstKey around)
  | _ => none

/-- A token where a key is expected. -/
def acceptKey (before : List (String × Json)) (around : List Open) : Token → Option Expects
  | .str k => some (.colon before k around)
  | _ => none

/-- A token behind a value. -/
def acceptRest (v : Json) : List Open → Token → Option Expects
  | .items before :: around, .comma => some (.value (.items (before ++ [v]) :: around))
  | .items before :: around, .closeArray => some (.rest (.arr (before ++ [v])) around)
  | .field before k :: around, .comma => some (.key (before ++ [(k, v)]) around)
  | .field before k :: around, .closeObject => some (.rest (.obj (before ++ [(k, v)])) around)
  | _, _ => none

/-- A token, and what may come behind it. -/
def accept : Expects → Token → Option Expects
  | .value around, t => acceptValue around t
  | .firstItem around, t =>
    if t = .closeArray then some (.rest (.arr []) around) else acceptValue (.items [] :: around) t
  | .key before around, t => acceptKey before around t
  | .firstKey around, t =>
    if t = .closeObject then some (.rest (.obj []) around) else acceptKey [] around t
  | .colon before k around, t => if t = .colon then some (.value (.field before k :: around)) else none
  | .rest v around, t => acceptRest v around t

/-- The value of tokens, from what may come next. -/
def build : Expects → List Token → Option Json
  | .rest v [], [] => some v
  | _, [] => none
  | e, t :: ts => (accept e t).bind fun e => build e ts

/-- The value that a text writes. -/
def read? (text : String) : Option Json := (scan .blanks text.toList).bind (build (.value []))

/-! ## The tokens of a value -/

mutual

/-- The tokens of a value. -/
def tokens : Json → List Token
  | bool b => [.bool b]
  | num n => [.num n]
  | str s => [.str s]
  | arr [] => [.openArray, .closeArray]
  | arr (v :: vs) => .openArray :: (tokens v ++ (tokensItems vs ++ [.closeArray]))
  | obj [] => [.openObject, .closeObject]
  | obj (f :: fs) => .openObject :: (tokensField f ++ (tokensFields fs ++ [.closeObject]))

/-- The tokens of the items after the first. -/
def tokensItems : List Json → List Token
  | [] => []
  | v :: vs => .comma :: (tokens v ++ tokensItems vs)

/-- The tokens of a field. -/
def tokensField : String × Json → List Token
  | (k, v) => .str k :: .colon :: tokens v

/-- The tokens of the fields after the first. -/
def tokensFields : List (String × Json) → List Token
  | [] => []
  | f :: fs => .comma :: (tokensField f ++ tokensFields fs)

end

/-! ## Tokens build their value -/

theorem build_cons {e e' : Expects} {t : Token} (h : accept e t = some e') (ts : List Token) :
    build e (t :: ts) = build e' ts := by
  rw [build, h]
  rfl

/-- **No value starts with the end of an array,** so that the first item is one like the others. -/
theorem build_firstItem (v : Json) (around : List Open) (ts : List Token) :
    build (.firstItem around) (v.tokens ++ ts) = build (.value (.items [] :: around)) (v.tokens ++ ts) := by
  match v with
  | bool b => rfl
  | num n => rfl
  | str s => rfl
  | arr [] => rfl
  | arr (v :: vs) => rfl
  | obj [] => rfl
  | obj (f :: fs) => rfl

theorem build_tokensField (before : List (String × Json)) (k : String) (v : Json) (around : List Open)
    (ts : List Token) :
    build (.key before around) (tokensField (k, v) ++ ts) =
      build (.value (.field before k :: around)) (v.tokens ++ ts) := rfl

/-- **No field starts with the end of an object,** so that the first one is one like the others. -/
theorem build_firstField (k : String) (v : Json) (around : List Open) (ts : List Token) :
    build (.firstKey around) (tokensField (k, v) ++ ts) = build (.key [] around) (tokensField (k, v) ++ ts) := rfl

mutual

/-- **The tokens of a value build it,** whatever is open around it and whatever follows. -/
theorem build_tokens (around : List Open) (ts : List Token) :
    (v : Json) → build (.value around) (v.tokens ++ ts) = build (.rest v around) ts
  | bool b => rfl
  | num n => rfl
  | str s => rfl
  | arr [] => rfl
  | arr (v :: vs) => by
    rw [tokens, List.cons_append, build_cons rfl, List.append_assoc, List.append_assoc, build_firstItem,
      build_tokens _ _ v]
    exact build_tokensItems [] v around ts vs
  | obj [] => rfl
  | obj ((k, v) :: fs) => by
    rw [tokens, List.cons_append, build_cons rfl, List.append_assoc, List.append_assoc, build_firstField,
      build_tokensField, build_tokens _ _ v]
    exact build_tokensFields [] k v around ts fs

/-- **Items build the array** that they are in. -/
theorem build_tokensItems (before : List Json) (v : Json) (around : List Open) (ts : List Token) :
    (vs : List Json) →
      build (.rest v (.items before :: around)) (tokensItems vs ++ ([.closeArray] ++ ts)) =
        build (.rest (.arr (before ++ v :: vs)) around) ts
  | [] => rfl
  | w :: ws => by
    rw [tokensItems, List.cons_append, build_cons rfl, List.append_assoc, build_tokens _ _ w,
      build_tokensItems _ w around ts ws, List.append_assoc]
    rfl

/-- **Fields build the object** that they are in. -/
theorem build_tokensFields (before : List (String × Json)) (k : String) (v : Json) (around : List Open)
    (ts : List Token) : (fs : List (String × Json)) →
      build (.rest v (.field before k :: around)) (tokensFields fs ++ ([.closeObject] ++ ts)) =
        build (.rest (.obj (before ++ (k, v) :: fs)) around) ts
  | [] => rfl
  | (l, w) :: fs => by
    rw [tokensFields, List.cons_append, build_cons rfl, List.append_assoc, build_tokensField,
      build_tokens _ _ w, build_tokensFields _ l w around ts fs, List.append_assoc]
    rfl

end

/-! ## Written texts scan to the tokens of their value -/

theorem scan_cons {w w' : Within} {c : Char} {ts : List Token} (h : step w c = some (ts, w')) (cs : List Char) :
    scan w (c :: cs) = (scan w' cs).map (ts ++ ·) := by
  rw [scan, h]
  rfl

/-- **A character without a token** only changes what the scan is within. -/
theorem scan_silent {w w' : Within} {c : Char} (h : step w c = some ([], w')) (cs : List Char) :
    scan w (c :: cs) = scan w' cs := by
  rw [scan_cons h]
  cases scan w' cs <;> rfl

/-- A text that does not go on with a digit, so that a number in front of it ends there. -/
def Delimited (cs : List Char) : Prop := ∀ c ∈ cs.head?, digit? 10 c = none

theorem Delimited.append {cs ds : List Char} (hc : Delimited cs) (hd : Delimited ds) : Delimited (cs ++ ds) := by
  cases cs with
  | nil => exact hd
  | cons c cs => exact hc

/-- A text scans to tokens, whatever follows it but a digit. -/
def Writes (cs : List Char) (ts : List Token) : Prop :=
  ∀ rest, Delimited rest → scan .blanks (cs ++ rest) = (scan .blanks rest).map (ts ++ ·)

namespace Writes

variable {cs ds : List Char} {ts us : List Token}

theorem nil : Writes [] [] := by
  intro rest _
  cases h : scan .blanks rest <;> simp [h]

/-- **A mark in front** is one more token. -/
theorem mark {c : Char} {t : Token} (hc : step .blanks c = some ([t], .blanks)) (h : Writes cs ts) :
    Writes (c :: cs) (t :: ts) := by
  intro rest hrest
  rw [List.cons_append, scan_cons hc, h rest hrest, Option.map_map]
  rfl

/-- **Blanks in front** are no token. -/
theorem blanks {bs : List Char} (hb : ∀ b ∈ bs, isBlank b = true) (h : Writes cs ts) : Writes (bs ++ cs) ts := by
  induction bs with
  | nil => exact h
  | cons b bs ih =>
    intro rest hrest
    have hstart : step .blanks b = some ([], .blanks) := by
      simp [step, start, hb b List.mem_cons_self]
    rw [List.cons_append, List.cons_append, scan_silent hstart]
    exact ih (fun b hb' => hb b (List.mem_cons_of_mem _ hb')) rest hrest

/-- **A line break and its indentation** are no token. -/
theorem newline (level : Nat) (h : Writes cs ts) : Writes ((Json.newline level).toList ++ cs) ts := by
  refine blanks (fun b hb => ?_) h
  simp only [Json.newline, String.toList_append, String.toList_ofList, List.mem_append] at hb
  rcases hb with hb | hb
  · rw [List.mem_singleton.1 hb]
    rfl
  · rw [List.eq_of_mem_replicate hb]
    rfl

/-- **One text behind another,** if it does not go on with a digit. -/
theorem append (hc : Writes cs ts) (hd : Writes ds us) (hds : Delimited ds) : Writes (cs ++ ds) (ts ++ us) := by
  intro rest hrest
  rw [List.append_assoc, hc _ (hds.append hrest), hd rest hrest, Option.map_map]
  simp [Function.comp_def]

end Writes

/-! ### Words -/

/-- **A word is read letter by letter.** -/
theorem scan_letters (b : Bool) (l : Char) (ls rest : List Char) :
    scan (.word b (l :: ls)) (l :: ls ++ rest) = (scan .blanks rest).map ([.bool b] ++ ·) := by
  induction ls generalizing l with
  | nil => exact scan_cons (by simp [step]) rest
  | cons l' ls ih =>
    have hletter : step (.word b (l :: l' :: ls)) l = some ([], .word b (l' :: ls)) := by simp [step]
    rw [List.cons_append, scan_silent hletter]
    exact ih l'

theorem writes_word (b : Bool) (c l : Char) (ls : List Char) (hc : step .blanks c = some ([], .word b (l :: ls))) :
    Writes (c :: l :: ls) [.bool b] := by
  intro rest _
  rw [List.cons_append, scan_silent hc]
  exact scan_letters b l ls rest

/-! ### Numbers -/

/-- **Digits are collected** to the number that they write. -/
theorem scan_numeral {cs : List Char} {n : Nat} (h : Numeral 10 cs n) (rest : List Char) :
    scan (.number 0) (cs ++ rest) = scan (.number n) rest := by
  induction h generalizing rest with
  | nil => rfl
  | @snoc cs n c d _ hc ih =>
    have hd : digit? 10 c = some d := (Text.digit?_eq_some_iff (by decide)).2 hc
    rw [List.append_assoc, ih]
    exact scan_silent (by simp [step, hd]) rest

/-- **A number ends** where no digit follows. -/
theorem scan_number (n : Nat) {rest : List Char} (h : Delimited rest) :
    scan (.number n) rest = (scan .blanks rest).map ([.num n] ++ ·) := by
  cases rest with
  | nil => rfl
  | cons c cs =>
    have hc : digit? 10 c = none := h c rfl
    have hstep : step (.number n) c = (step .blanks c).map fun r => (.num n :: r.1, r.2) := by simp [step, hc]
    cases hs : step .blanks c with
    | none => simp [scan, hstep, hs]
    | some r => simp [scan, hstep, hs, Function.comp_def]

/-- **A digit starts a number.** -/
theorem step_digit {c : Char} {d : Nat} (h : IsDigit 10 c d) : step .blanks c = some ([], .number d) := by
  have hdigits : ∀ d, d < 10 → start d.digitChar = some ([], .number d) ∧
      start d.digitChar.toUpper = some ([], .number d) := by decide
  obtain ⟨hd, rfl | rfl⟩ := h
  · exact (hdigits d hd).1
  · exact (hdigits d hd).2

theorem writes_num (n : Nat) : Writes (toString n).toList [.num n] := by
  intro rest hrest
  have htext : (toString n).toList = Nat.toDigits 10 n := String.toList_ofList
  have hbase : 1 < 10 := by decide
  obtain ⟨hne, hnumeral⟩ := Text.numeral_toDigits hbase n
  rw [htext, ← scan_number n hrest, ← scan_numeral hnumeral]
  cases hcs : Nat.toDigits 10 n with
  | nil => exact absurd hcs hne
  | cons c cs =>
    obtain ⟨d, hd⟩ := hnumeral.isDigit_of_mem (c := c) (by rw [hcs]; exact List.mem_cons_self)
    have hnumber : step (.number 0) c = some ([], .number d) := by
      simp [step, (Text.digit?_eq_some_iff (by decide)).2 hd]
    rw [List.cons_append, scan_silent hnumber]
    exact scan_silent (step_digit hd) _

/-! ### Strings -/

/-- **A digit of an escape** is the one with its value. -/
theorem step_code {left d : Nat} (hd : d < 16) (hleft : 1 < left) (cs : List Char) (n : Nat) :
    step (.code cs left n) d.digitChar = some ([], .code cs (left - 1) (n * 16 + d)) := by
  have hdigit : digit? 16 d.digitChar = some d := (Text.digit?_eq_some_iff (by decide)).2 ⟨hd, .inl rfl⟩
  simp [step, hdigit, hleft]

/-- **The number of a character** stands for it. -/
theorem scan_escapeDigits {c : Char} (hc : c.toNat < 0x20) (cs rest : List Char) :
    scan (.code cs 4 0) (escapeDigits c ++ rest) = scan (.string (cs ++ [c])) rest := by
  have hzero : '0' = Nat.digitChar 0 := rfl
  have hlast : digit? 16 (c.toNat % 16).digitChar = some (c.toNat % 16) :=
    (Text.digit?_eq_some_iff (by decide)).2 ⟨by omega, .inl rfl⟩
  have hnumber : c.toNat / 16 * 16 + c.toNat % 16 = c.toNat := by omega
  have hvalid : c.toNat.isValidChar := c.valid
  rw [escapeDigits, hzero, List.cons_append, scan_silent (step_code (by decide) (by decide) ..), List.cons_append,
    scan_silent (step_code (by decide) (by decide) ..), List.cons_append,
    scan_silent (step_code (by omega) (by decide) ..)]
  refine scan_silent ?_ rest
  simp [step, hlast, hnumber, hvalid, Char.ofNat_toNat]

/-- **A letter behind a backslash** stands for its character. -/
theorem scan_short {e c : Char} (he : e ≠ 'u') (h : unescape? e = some c) (cs rest : List Char) :
    scan (.string cs) (['\\', e] ++ rest) = scan (.string (cs ++ [c])) rest := by
  have hescape : step (.string cs) '\\' = some ([], .escape cs) := rfl
  rw [List.cons_append, scan_silent hescape]
  refine scan_silent ?_ rest
  simp [step, he, h]

/-- **An escaped character** is read as the character. -/
theorem scan_escape (c : Char) (cs rest : List Char) :
    scan (.string cs) (escape c ++ rest) = scan (.string (cs ++ [c])) rest := by
  unfold escape
  -- Seven characters have a letter of their own, the others below the blank have a number.
  iterate 7
    split
    · rename_i hc
      subst hc
      exact scan_short (by decide) rfl cs rest
  split
  · rename_i hcontrol
    have hescape : step (.string cs) '\\' = some ([], .escape cs) := rfl
    have hcode : step (.escape cs) 'u' = some ([], .code cs 4 0) := rfl
    rw [List.cons_append, scan_silent hescape, List.cons_append, scan_silent hcode]
    exact scan_escapeDigits hcontrol cs rest
  · rename_i hquote hslash _ _ _ _ _ hplain
    refine scan_silent ?_ rest
    simp [step, hquote, hslash, hplain]

/-- **A string is read up to its closing quote.** -/
theorem scan_flatMap_escape (s cs rest : List Char) :
    scan (.string cs) (s.flatMap escape ++ '"' :: rest) =
      (scan .blanks rest).map ([.str (String.ofList (cs ++ s))] ++ ·) := by
  induction s generalizing cs with
  | nil =>
    rw [List.append_nil]
    exact scan_cons rfl rest
  | cons c s ih =>
    rw [List.flatMap_cons, List.append_assoc, scan_escape, ih, List.append_assoc]
    rfl

/-- **A string between quotes in front** is one more token. -/
theorem Writes.quote {cs : List Char} {ts : List Token} (s : String) (h : Writes cs ts) :
    Writes ((quote s).toList ++ cs) (.str s :: ts) := by
  intro rest hrest
  have hopen : step .blanks '"' = some ([], .string []) := rfl
  have htext : (Json.quote s).toList ++ cs ++ rest = '"' :: (s.toList.flatMap escape ++ '"' :: (cs ++ rest)) := by
    simp [Json.quote]
  rw [htext, scan_silent hopen, scan_flatMap_escape, h rest hrest, Option.map_map, List.nil_append,
    String.ofList_toList]
  rfl

/-! ### Values -/

/-- **What follows a value** in an array or object starts with a comma or on a new line. -/
theorem delimited_renderItems (level : Nat) (vs : List Json) : Delimited (renderItems level vs).toList := by
  cases vs with
  | nil => rintro c ⟨⟩
  | cons v vs =>
    simp only [renderItems, String.toList_append, List.append_assoc]
    rintro c ⟨⟩
    rfl

theorem delimited_renderFields (level : Nat) (fs : List (String × Json)) :
    Delimited (renderFields level fs).toList := by
  cases fs with
  | nil => rintro c ⟨⟩
  | cons f fs =>
    simp only [renderFields, String.toList_append, List.append_assoc]
    rintro c ⟨⟩
    rfl

theorem delimited_newline (level : Nat) (cs : List Char) : Delimited ((newline level).toList ++ cs) := by
  simp only [newline, String.toList_append, List.append_assoc]
  rintro c ⟨⟩
  rfl

mutual

/-- **The text of a value scans to its tokens.** -/
theorem writes_render (level : Nat) : (v : Json) → Writes (render level v).toList v.tokens
  | bool b => by
    rw [tokens]
    cases b with
    | true =>
      rw [render]
      exact writes_word true 't' 'r' ['u', 'e'] rfl
    | false =>
      rw [render]
      exact writes_word false 'f' 'a' ['l', 's', 'e'] rfl
  | num n => by
    rw [render, tokens]
    exact writes_num n
  | str s => by
    rw [render, tokens, ← List.append_nil (quote s).toList]
    exact Writes.nil.quote s
  | arr [] => by
    rw [render, tokens]
    exact .mark rfl (.mark rfl .nil)
  | arr (v :: vs) => by
    simp only [render, tokens, String.toList_append, List.append_assoc]
    have hclose : Writes ((newline level).toList ++ [']']) [.closeArray] := .newline level (.mark rfl .nil)
    have hitems := (writes_renderItems (level + 1) vs).append hclose (delimited_newline _ _)
    have hvalue := (writes_render (level + 1) v).append hitems
      ((delimited_renderItems _ _).append (delimited_newline _ _))
    exact .mark rfl (.newline _ hvalue)
  | obj [] => by
    rw [render, tokens]
    exact .mark rfl (.mark rfl .nil)
  | obj (f :: fs) => by
    simp only [render, tokens, String.toList_append, List.append_assoc]
    have hclose : Writes ((newline level).toList ++ ['\x7d']) [.closeObject] := .newline level (.mark rfl .nil)
    have hfields := (writes_renderFields (level + 1) fs).append hclose (delimited_newline _ _)
    have hfield := (writes_renderField (level + 1) f).append hfields
      ((delimited_renderFields _ _).append (delimited_newline _ _))
    exact .mark rfl (.newline _ hfield)

theorem writes_renderItems (level : Nat) :
    (vs : List Json) → Writes (renderItems level vs).toList (tokensItems vs)
  | [] => .nil
  | v :: vs => by
    simp only [renderItems, tokensItems, String.toList_append, List.append_assoc]
    have hvalue := (writes_render level v).append (writes_renderItems level vs) (delimited_renderItems _ _)
    exact .mark rfl (.newline _ hvalue)

theorem writes_renderField (level : Nat) : (f : String × Json) → Writes (renderField level f).toList (tokensField f)
  | (k, v) => by
    simp only [renderField, tokensField, String.toList_append, List.append_assoc]
    have hblank : ∀ b ∈ [' '], isBlank b = true := List.forall_mem_singleton.2 rfl
    exact .quote k (.mark rfl (.blanks hblank (writes_render level v)))

theorem writes_renderFields (level : Nat) :
    (fs : List (String × Json)) → Writes (renderFields level fs).toList (tokensFields fs)
  | [] => .nil
  | f :: fs => by
    simp only [renderFields, tokensFields, String.toList_append, List.append_assoc]
    have hfield := (writes_renderField level f).append (writes_renderFields level fs) (delimited_renderFields _ _)
    exact .mark rfl (.newline _ hfield)

end

/-- **What is written can be read back.** -/
theorem read?_pretty (v : Json) : read? v.pretty = some v := by
  have hend : Delimited [] := by rintro c ⟨⟩
  have hscan := writes_render 0 v [] hend
  rw [List.append_nil, scan, Option.map_some, List.append_nil] at hscan
  have hbuild := build_tokens [] [] v
  rw [List.append_nil] at hbuild
  rw [read?, pretty, hscan]
  exact hbuild

-- A layout and escapes that are never written are read as well.
example : read? "[ \x7b\"a\" :\t[true,12 ]\x7d,\"\\u00e9\\/\"]" =
    some (arr [obj [("a", arr [bool true, num 12])], str "é/"]) := rfl

end Json
end WasmLowering
