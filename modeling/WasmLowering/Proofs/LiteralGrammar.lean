/-
# The grammar of literals

`Literal.parse` reads a text: it drops blanks, looks for a sign, looks for the
mark of a base and folds digits into a number.  Here the texts are described the
other way round, by how they are put together, without reading anything.

| Notion               | Texts                                                       |
|----------------------|-------------------------------------------------------------|
| `Text.IsDigit`       | the digit with a value, in either case                      |
| `Text.Numeral`       | digits one after the other, the last one worth least        |
| `Literal.Magnitude`  | a decimal numeral, or `0x` or `0X` and a hexadecimal one    |
| `Literal.Spelling`   | a magnitude, or a minus sign and a magnitude                |
| `Literal.Denotes`    | a spelling between blanks                                   |
| `Literal.render`     | the spelling that prints a number in a base                 |

`Literal.parse_iff` says that `Literal.parse` accepts the texts that denote a
number in the range of the width and no others, and gives the residue of that
number modulo the size of the width.  So it does not matter which of its
spellings a number is written with.
-/

import Mathlib.Data.List.Induction
import WasmLowering.Literal

namespace WasmLowering
namespace Text

/-- A character is the digit of a value in a base up to sixteen, in either case. -/
def IsDigit (base : Nat) (c : Char) (d : Nat) : Prop :=
  d < base ∧ (c = d.digitChar ∨ c = d.digitChar.toUpper)

instance (base : Nat) (c : Char) (d : Nat) : Decidable (IsDigit base c d) :=
  inferInstanceAs (Decidable (_ ∧ _))

/-- The texts made of digits and the numbers that they write.  No digits write zero. -/
inductive Numeral (base : Nat) : List Char → Nat → Prop
  | nil : Numeral base [] 0
  | snoc {cs : List Char} {n : Nat} {c : Char} {d : Nat} (hcs : Numeral base cs n)
      (hc : IsDigit base c d) : Numeral base (cs ++ [c]) (n * base + d)

variable {base n d : Nat} {c : Char} {cs : List Char}

/-! ### Digits -/

theorem digit?_base (hbase : base ≤ 16) :
    digit? base c = some d ↔ digit? 16 c = some d ∧ d < base := by
  simp only [digit?, Option.filter_eq_some_iff, decide_eq_true_eq]
  rw [and_assoc]
  exact and_congr_right fun _ => by omega

/-- No character after `f` is a digit. -/
theorem toNat_lt_of_digit? (h : digit? base c = some d) : c.toNat < 103 := by
  have hle : ∀ {a : Char}, a.toNat < 103 → c ≤ a → c.toNat < 103 :=
    fun ha hc => Nat.lt_of_le_of_lt hc ha
  simp only [digit?, Option.filter_eq_some_iff] at h
  obtain ⟨h, -⟩ := h
  split at h
  · next hc => exact hle (by decide) hc.2
  · split at h
    · next hc => exact hle (by decide) hc.2
    · split at h
      · next hc => exact hle (by decide) hc.2
      · cases h

/-- **The characters with a value are the digits**, each with its own value. -/
theorem digit?_eq_some_iff (hbase : base ≤ 16) : digit? base c = some d ↔ IsDigit base c d := by
  -- Sixteen values one way, and the characters up to `f` the other.
  have hread : ∀ d, d < 16 →
      digit? 16 d.digitChar = some d ∧ digit? 16 d.digitChar.toUpper = some d := by decide
  have hchars : ∀ k, k < 103 →
      (digit? 16 (Char.ofNat k)).all (fun d => decide (IsDigit 16 (Char.ofNat k) d)) = true := by
    decide
  rw [digit?_base hbase]
  constructor
  · rintro ⟨h, hd⟩
    have hc := hchars c.toNat (toNat_lt_of_digit? h)
    rw [Char.ofNat_toNat, h] at hc
    exact ⟨hd, (of_decide_eq_true hc).2⟩
  · rintro ⟨hd, rfl | rfl⟩
    · exact ⟨(hread d (by omega)).1, hd⟩
    · exact ⟨(hread d (by omega)).2, hd⟩

/-- A digit is neither a blank nor a minus sign. -/
theorem IsDigit.not_blank (hbase : base ≤ 16) (h : IsDigit base c d) :
    isBlank c = false ∧ c ≠ '-' := by
  have hdigits : ∀ d, d < 16 → (isBlank d.digitChar = false ∧ d.digitChar ≠ '-') ∧
      isBlank d.digitChar.toUpper = false ∧ d.digitChar.toUpper ≠ '-' := by decide
  obtain ⟨hd, rfl | rfl⟩ := h
  · exact (hdigits d (by omega)).1
  · exact (hdigits d (by omega)).2

/-- The mark of the hexadecimal base is no decimal digit. -/
theorem IsDigit.not_mark (h : IsDigit 10 c d) : ¬ (c = 'x' ∨ c = 'X') := by
  have hdigits : ∀ d, d < 10 → ¬ (d.digitChar = 'x' ∨ d.digitChar = 'X') ∧
      ¬ (d.digitChar.toUpper = 'x' ∨ d.digitChar.toUpper = 'X') := by decide
  obtain ⟨hd, rfl | rfl⟩ := h
  · exact (hdigits d hd).1
  · exact (hdigits d hd).2

/-! ### Numerals -/

theorem ofDigits_concat (ds : List Nat) :
    ofDigits base (ds ++ [d]) = ofDigits base ds * base + d := by
  simp [ofDigits]

/-- One more digit at the end of a text multiplies the number by the base and adds the digit. -/
theorem mapM_digit?_concat : ((cs ++ [c]).mapM (digit? base)).map (ofDigits base) = some n ↔
    ∃ m d, (cs.mapM (digit? base)).map (ofDigits base) = some m ∧ digit? base c = some d ∧
      m * base + d = n := by
  rw [List.mapM_append, List.mapM_cons, List.mapM_nil]
  cases cs.mapM (digit? base) <;> cases hc : digit? base c <;> simp [ofDigits_concat]

/-- **Folding digits reads the numerals**, and reads nothing else. -/
theorem mapM_digit?_eq_some_iff (hbase : base ≤ 16) :
    (cs.mapM (digit? base)).map (ofDigits base) = some n ↔ Numeral base cs n := by
  constructor
  · intro h
    induction cs using List.reverseRecOn generalizing n with
    | nil =>
      cases h
      exact .nil
    | append_singleton cs c ih =>
      obtain ⟨m, d, hcs, hc, rfl⟩ := mapM_digit?_concat.1 h
      exact .snoc (ih hcs) ((digit?_eq_some_iff hbase).1 hc)
  · intro h
    induction h with
    | nil => rfl
    | snoc hcs hc ih =>
      exact mapM_digit?_concat.2 ⟨_, _, ih, (digit?_eq_some_iff hbase).2 hc, rfl⟩

theorem digits?_eq_some_iff (hbase : base ≤ 16) :
    digits? base cs = some n ↔ cs ≠ [] ∧ Numeral base cs n := by
  cases cs with
  | nil => simp [digits?]
  | cons c cs => simp [digits?, ← mapM_digit?_eq_some_iff hbase]

theorem Numeral.isDigit_of_mem (h : Numeral base cs n) (hc : c ∈ cs) : ∃ d, IsDigit base c d := by
  induction h with
  | nil => cases hc
  | @snoc cs n c' d _ hc' ih =>
    rcases List.mem_append.1 hc with hc | hc
    · exact ih hc
    · exact ⟨d, List.mem_singleton.1 hc ▸ hc'⟩

/-- **Printing a number writes a numeral of it**, with at least one digit. -/
theorem numeral_toDigits (hbase : 1 < base) (n : Nat) :
    base.toDigits n ≠ [] ∧ Numeral base (base.toDigits n) n := by
  induction n using Nat.strongRecOn with
  | ind n ih =>
    rw [Nat.toDigits_eq_if hbase]
    split
    · next hn =>
      refine ⟨by simp, ?_⟩
      have h := Numeral.snoc .nil (⟨hn, .inl rfl⟩ : IsDigit base n.digitChar n)
      rwa [Nat.zero_mul, Nat.zero_add, List.nil_append] at h
    · next hn =>
      refine ⟨by simp, ?_⟩
      have hdigit : IsDigit base (n % base).digitChar (n % base) :=
        ⟨Nat.mod_lt n (by omega), .inl rfl⟩
      have h := (ih (n / base) (Nat.div_lt_self (by omega) hbase)).2.snoc hdigit
      rwa [Nat.div_add_mod'] at h

/-! ### Blanks -/

/-- Dropping blanks from the front stops at the first other character. -/
theorem dropWhile_blanks {before core : List Char} (hb : ∀ c ∈ before, isBlank c = true)
    (hne : core ≠ []) (hcore : ∀ c ∈ core, isBlank c = false) (after : List Char) :
    (before ++ (core ++ after)).dropWhile isBlank = core ++ after := by
  rw [List.dropWhile_append_of_pos hb]
  cases core with
  | nil => exact absurd rfl hne
  | cons c core => simp [hcore c List.mem_cons_self]

/-- **Trimming finds what stands between blanks.** -/
theorem trim_eq {before core after : List Char} (hb : ∀ c ∈ before, isBlank c = true)
    (ha : ∀ c ∈ after, isBlank c = true) (hne : core ≠ [])
    (hcore : ∀ c ∈ core, isBlank c = false) : trim (before ++ (core ++ after)) = core := by
  have hback : (after.reverse ++ (core.reverse ++ [])).dropWhile isBlank = core.reverse ++ [] :=
    dropWhile_blanks (fun c hc => ha c (List.mem_reverse.1 hc)) (by simpa using hne)
      (fun c hc => hcore c (List.mem_reverse.1 hc)) []
  rw [List.append_nil] at hback
  rw [trim, dropWhile_blanks hb hne hcore, List.reverse_append, hback, List.reverse_reverse]

theorem blank_of_mem_takeWhile (h : c ∈ cs.takeWhile isBlank) : isBlank c = true :=
  List.all_eq_true.1 List.all_takeWhile c h

/-- **Trimming only takes blanks away.** -/
theorem exists_trim (cs : List Char) : ∃ before after, cs = before ++ (trim cs ++ after) ∧
    (∀ c ∈ before, isBlank c = true) ∧ ∀ c ∈ after, isBlank c = true := by
  refine ⟨cs.takeWhile isBlank, ((cs.dropWhile isBlank).reverse.takeWhile isBlank).reverse, ?_,
    fun c => blank_of_mem_takeWhile,
    fun c hc => blank_of_mem_takeWhile (List.mem_reverse.1 hc)⟩
  rw [trim, ← List.reverse_append, List.takeWhile_append_dropWhile, List.reverse_reverse,
    List.takeWhile_append_dropWhile]

end Text

namespace Literal

open Text

/-- The texts of numbers without a sign. -/
inductive Magnitude : List Char → Nat → Prop
  | decimal {cs : List Char} {n : Nat} (hne : cs ≠ []) (h : Numeral 10 cs n) : Magnitude cs n
  | hex {x : Char} {cs : List Char} {n : Nat} (hx : x = 'x' ∨ x = 'X') (hne : cs ≠ [])
      (h : Numeral 16 cs n) : Magnitude ('0' :: x :: cs) n

/-- The texts of numbers with an optional minus sign. -/
inductive Spelling : List Char → Int → Prop
  | plain {cs : List Char} {n : Nat} (h : Magnitude cs n) : Spelling cs n
  | minus {cs : List Char} {n : Nat} (h : Magnitude cs n) : Spelling ('-' :: cs) (-n)

/-- A text denotes a number when blanks and a spelling of the number make it up. -/
def Denotes (text : String) (v : Int) : Prop :=
  ∃ before core after, text.toList = before ++ (core ++ after) ∧
    (∀ c ∈ before, isBlank c = true) ∧ (∀ c ∈ after, isBlank c = true) ∧ Spelling core v

/-- The numbers that a literal may denote at a width. -/
def InRange (w : Width) (v : Int) : Prop :=
  (if w.signed then -(Nat.pow 2 (w.bits - 1) : Int) else 0) ≤ v ∧ v ≤ (Nat.pow 2 w.bits : Int) - 1

instance (w : Width) (v : Int) : Decidable (InRange w v) :=
  inferInstanceAs (Decidable (_ ∧ _))

/-- A number printed in a base, with its sign in front of the mark of the base. -/
def render (mark : String) (base : Nat) (v : Int) : String :=
  (if v < 0 then "-" else "") ++ mark ++ String.ofList (base.toDigits v.natAbs)

variable {cs : List Char} {n : Nat} {v : Int} {w : Width} {text : String}

/-! ### Reading spellings -/

/-- A magnitude starts with a digit. -/
theorem Magnitude.ne_minus (h : Magnitude cs n) (rest : List Char) : cs ≠ '-' :: rest := by
  rintro rfl
  cases h with
  | decimal hne h =>
    obtain ⟨d, hd⟩ := h.isDigit_of_mem List.mem_cons_self
    exact (hd.not_blank (by decide)).2 rfl

theorem magnitude?_eq_some_iff :
    magnitude? cs = some n ↔ Magnitude cs n ∧ n < magnitudeBound := by
  -- A decimal numeral that starts with a hexadecimal mark has the mark for a digit.
  have hmark : ∀ {x : Char} {rest : List Char}, x = 'x' ∨ x = 'X' →
      (digits? 16 rest = some n ↔ Magnitude ('0' :: x :: rest) n) := by
    intro x rest hx
    rw [digits?_eq_some_iff (by decide)]
    constructor
    · rintro ⟨hne, h⟩
      exact .hex hx hne h
    · intro h
      cases h with
      | decimal hne h =>
        obtain ⟨d, hd⟩ := h.isDigit_of_mem (List.mem_cons_of_mem _ List.mem_cons_self)
        exact absurd hx hd.not_mark
      | hex _ hne h => exact ⟨hne, h⟩
  simp only [magnitude?, Option.filter_eq_some_iff, decide_eq_true_eq]
  refine and_congr_left fun _ => ?_
  split
  · exact hmark (.inl rfl)
  · exact hmark (.inr rfl)
  · next hx hX =>
    rw [digits?_eq_some_iff (by decide)]
    constructor
    · rintro ⟨hne, h⟩
      exact .decimal hne h
    · intro h
      cases h with
      | decimal hne h => exact ⟨hne, h⟩
      | hex hmark _ _ =>
        rcases hmark with rfl | rfl
        · exact absurd rfl (hx _)
        · exact absurd rfl (hX _)

theorem integer?_eq_some_iff :
    integer? cs = some v ↔ Spelling cs v ∧ v.natAbs < magnitudeBound := by
  unfold integer?
  split
  · simp only [Option.map_eq_some_iff, Option.bind_eq_bind, Option.bind_eq_some_iff,
      Option.pure_def, Option.some.injEq, magnitude?_eq_some_iff]
    constructor
    · rintro ⟨_, ⟨n, ⟨hn, hbound⟩, rfl⟩, rfl⟩
      exact ⟨.minus hn, by omega⟩
    · rintro ⟨h, hbound⟩
      cases h with
      | plain h => exact absurd rfl (h.ne_minus _)
      | @minus _ n h => exact ⟨n, ⟨n, ⟨h, by omega⟩, rfl⟩, rfl⟩
  · next hminus =>
    simp only [Option.map_eq_some_iff, magnitude?_eq_some_iff]
    constructor
    · rintro ⟨n, ⟨hn, hbound⟩, rfl⟩
      exact ⟨.plain hn, by simpa using hbound⟩
    · rintro ⟨h, hbound⟩
      cases h with
      | @plain _ n h => exact ⟨n, ⟨h, by omega⟩, rfl⟩
      | minus h => exact absurd rfl (hminus _)

theorem Magnitude.not_blank (h : Magnitude cs n) : cs ≠ [] ∧ ∀ c ∈ cs, isBlank c = false := by
  cases h with
  | decimal hne h =>
    refine ⟨hne, fun c hc => ?_⟩
    obtain ⟨d, hd⟩ := h.isDigit_of_mem hc
    exact (hd.not_blank (by decide)).1
  | @hex x cs n hx hne h =>
    refine ⟨by simp, fun c hc => ?_⟩
    rcases List.mem_cons.1 hc with rfl | hc
    · decide
    rcases List.mem_cons.1 hc with rfl | hc
    · rcases hx with rfl | rfl <;> decide
    · obtain ⟨d, hd⟩ := h.isDigit_of_mem hc
      exact (hd.not_blank (by decide)).1

theorem Spelling.not_blank (h : Spelling cs v) : cs ≠ [] ∧ ∀ c ∈ cs, isBlank c = false := by
  cases h with
  | plain h => exact h.not_blank
  | minus h =>
    refine ⟨by simp, fun c hc => ?_⟩
    rcases List.mem_cons.1 hc with rfl | hc
    · decide
    · exact h.not_blank.2 c hc

/-- **The reader of integers reads the texts that denote one**, below the bound of magnitudes. -/
theorem integer?_trim_eq_some_iff :
    integer? (trim text.toList) = some v ↔ Denotes text v ∧ v.natAbs < magnitudeBound := by
  rw [integer?_eq_some_iff]
  refine and_congr_left fun _ => ⟨fun h => ?_, ?_⟩
  · obtain ⟨before, after, htext, hb, ha⟩ := exists_trim text.toList
    exact ⟨before, _, after, htext, hb, ha, h⟩
  · rintro ⟨before, core, after, htext, hb, ha, h⟩
    rwa [htext, trim_eq hb ha h.not_blank.1 h.not_blank.2]

/-! ### Ranges and words -/

theorem inRange_iff (hw : w ≠ .bool) : InRange w v ↔ lowest w ≤ v ∧ v ≤ highest w := by
  have hhalf : w.modulus / 2 = Nat.pow 2 (w.bits - 1) := by
    cases w <;> first | exact absurd rfl hw | rfl
  rw [InRange, lowest, highest, hhalf, Width.modulus_eq]

/-- No number in the range of a width reaches the bound of magnitudes. -/
theorem InRange.natAbs_lt (hw : w ≠ .bool) (h : InRange w v) : v.natAbs < magnitudeBound := by
  have hmodulus : w.modulus < magnitudeBound := by cases w <;> decide
  obtain ⟨hlow, hhigh⟩ := (inRange_iff hw).1 h
  rw [highest] at hhigh
  rw [lowest] at hlow
  split at hlow <;> omega

/-- **The word of a number is its residue** modulo the size of the width. -/
theorem toNat_word (w : Width) (v : Int) :
    ((word w v).toNat : Int) = v % (Nat.pow 2 w.bits : Int) := by
  have hpos : (0 : Int) < w.modulus := Int.natCast_pos.2 w.modulus_pos
  have hnn := Int.emod_nonneg v (Int.ne_of_gt hpos)
  have hlt := Int.emod_lt_of_pos v hpos
  have hle := w.modulus_le_kind_modulus
  rw [word, Value.toNat_ofNat, Nat.mod_eq_of_lt (by omega), Int.toNat_of_nonneg hnn, w.modulus_eq]

/-- A kind and a number below its size determine a value. -/
theorem eq_word {x : Value} (hkind : x.kind = w.kind)
    (hx : (x.toNat : Int) = v % (Nat.pow 2 w.bits : Int)) : x = word w v := by
  have htoNat : x.toNat = (word w v).toNat := by
    have h := toNat_word w v
    omega
  have hsame : x.kind = (word w v).kind := by rw [hkind, kind_word]
  revert htoNat hsame
  cases x <;> cases word w v <;> simp [Value.kind, Value.toNat, BitVec.toNat_inj]

/-- **A text that denotes a number in the range of a width becomes the word of that number.** -/
theorem parse_of_denotes (hw : w ≠ .bool) (hv : InRange w v) (h : Denotes text v) :
    parse w text = .ok (word w v) := by
  have hread := integer?_trim_eq_some_iff.2 ⟨h, hv.natAbs_lt hw⟩
  rw [parse, if_neg hw, hread]
  exact if_pos ((inRange_iff hw).1 hv)

/-- What a text denotes when it becomes a word. -/
theorem denotes_of_parse (hw : w ≠ .bool) {x : Value} (h : parse w text = .ok x) :
    ∃ v, Denotes text v ∧ InRange w v ∧ x = word w v := by
  rw [parse, if_neg hw] at h
  split at h
  · cases h
  · next v hread =>
    split at h
    · next hrange =>
      exact ⟨v, (integer?_trim_eq_some_iff.1 hread).1, (inRange_iff hw).2 hrange,
        (Except.ok.inj h).symm⟩
    · cases h

/-! ### Printing -/

/-- **A printed number denotes that number**, if its mark and digits are a magnitude. -/
theorem denotes_render {mark : String} {base : Nat}
    (h : ∀ n, Magnitude (mark.toList ++ base.toDigits n) n) (v : Int) :
    Denotes (render mark base v) v := by
  refine ⟨[], (render mark base v).toList, [], by simp, by simp, by simp, ?_⟩
  have hmagnitude := h v.natAbs
  rw [render, String.toList_append, String.toList_append, String.toList_ofList, List.append_assoc]
  split
  · next hneg =>
    have hspelling := Spelling.minus hmagnitude
    rwa [show -(v.natAbs : Int) = v by omega] at hspelling
  · next hnonneg =>
    have hspelling := Spelling.plain hmagnitude
    rwa [show (v.natAbs : Int) = v by omega] at hspelling

theorem magnitude_decimal (n : Nat) : Magnitude ("".toList ++ Nat.toDigits 10 n) n := by
  obtain ⟨hne, h⟩ := numeral_toDigits (by decide : 1 < 10) n
  exact .decimal hne h

theorem magnitude_hex (n : Nat) : Magnitude ("0x".toList ++ Nat.toDigits 16 n) n := by
  obtain ⟨hne, h⟩ := numeral_toDigits (by decide : 1 < 16) n
  exact .hex (.inl rfl) hne h

/-! ### The grammar is what is read -/

/-- **A literal is accepted exactly when it denotes a number in the range of its width**, and
becomes the residue of that number; every other text is an invalid argument.  A number of the
range has the same word whether it is printed in decimal or in hexadecimal. -/
theorem parse_iff (hw : w ≠ .bool) :
    (∀ text x, parse w text = .ok x ↔
      ∃ v, Denotes text v ∧ v.natAbs < Nat.pow 2 127 ∧ InRange w v ∧
        x.kind = w.kind ∧ (x.toNat : Int) = v % (Nat.pow 2 w.bits : Int)) ∧
    (∀ text fault, parse w text = .error fault → fault.diagnostic.kind = .invalidArgument) ∧
    ∀ v, InRange w v →
      ∃ x, parse w (render "" 10 v) = .ok x ∧ parse w (render "0x" 16 v) = .ok x := by
  refine ⟨fun text x => ⟨fun h => ?_, ?_⟩, fun text fault h => ?_, fun v hv => ?_⟩
  · obtain ⟨v, hdenotes, hrange, rfl⟩ := denotes_of_parse hw h
    exact ⟨v, hdenotes, hrange.natAbs_lt hw, hrange, kind_word w v, toNat_word w v⟩
  · rintro ⟨v, hdenotes, -, hrange, hkind, hx⟩
    rw [parse_of_denotes hw hrange hdenotes, eq_word hkind hx]
  · rw [parse, if_neg hw] at h
    split at h
    · cases h
      rfl
    · split at h
      · cases h
      · cases h
        rfl
  · exact ⟨word w v, parse_of_denotes hw hv (denotes_render magnitude_decimal v),
      parse_of_denotes hw hv (denotes_render magnitude_hex v)⟩

/-- The greatest number of eight bits is read between blanks, the number after it is refused, and
the least number has one word however it is printed. -/
theorem parse_i8_ends :
    parse .i8 "\t0XfF " = .ok (.i32 255) ∧
    (∃ fault, parse .i8 "256" = .error fault ∧ fault.diagnostic.kind = .invalidArgument) ∧
    ∃ x, parse .i8 (render "" 10 (-128)) = .ok x ∧ parse .i8 (render "0x" 16 (-128)) = .ok x := by
  obtain ⟨haccept, hrefuse, hprint⟩ := parse_iff (w := .i8) (by decide)
  refine ⟨(haccept _ _).2 ⟨255, ?_, by decide, by decide, rfl, by decide⟩, ?_,
    hprint (-128) (by decide)⟩
  · have hread : integer? (trim "\t0XfF ".toList) = some 255 := by decide
    exact (integer?_trim_eq_some_iff.1 hread).1
  · have hfault : parse .i8 "256" = .error (.literalRange .i8 "256") := by decide
    exact ⟨_, hfault, hrefuse _ _ hfault⟩

end Literal
end WasmLowering
