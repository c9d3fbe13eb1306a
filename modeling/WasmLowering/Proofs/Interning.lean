/-
# Interning

A table of strings is filled by calls that intern one string each, with
repetitions.  The strings get their places in the order of their first calls:

| calls            | `"ab"` | `""` | `"a"` | `"ab"` | `"é"` |
|------------------|-------:|-----:|------:|-------:|------:|
| offset           |      0 |    3 |     4 |      0 |     6 |
| bytes after      |      3 |    4 |     6 |      6 |     9 |

The table keeps this in three fields that calls change apart.  What ties them
together is `StringTable.Consistent`, which every call keeps, and so all calls
(`StringTable.Consistent.internAll`).  It speaks of words that wrap.  As long as
all strings together take less than `2³²` bytes no word does, and the fields are
the numbers of the list of strings: the size (`toNat_size`), the offsets
(`toNat_offset?`), and the image that comes of writing each string over zeros at
its offset (`bytes_eq`).
-/

import WasmLowering.Proofs.Lowering

namespace WasmLowering

namespace Segment

/-- **The offset of a string** is the space of the strings before its first place. -/
theorem split_of_offsetIn? {s : String} {ss : List String} {o : Nat} (h : offsetIn? s ss = some o) :
    ∃ before after, ss = before ++ s :: after ∧ o = spaceOf before := by
  induction ss generalizing o with
  | nil => cases h
  | cons t ts ih =>
    rw [offsetIn?] at h
    split at h
    · rename_i ht
      subst ht
      cases h
      exact ⟨[], ts, rfl, rfl⟩
    · obtain ⟨p, hp, rfl⟩ := Option.map_eq_some_iff.1 h
      obtain ⟨before, after, rfl, rfl⟩ := ih hp
      exact ⟨t :: before, after, rfl, Nat.add_comm ..⟩

/-- **A string ends within the space of all.** -/
theorem offsetIn?_add_space {s : String} {ss : List String} {o : Nat} (h : offsetIn? s ss = some o) :
    o + space s ≤ spaceOf ss := by
  obtain ⟨before, after, rfl, rfl⟩ := split_of_offsetIn? h
  rw [spaceOf_append, spaceOf]
  omega

theorem offsetIn?_eq_none_iff {s : String} {ss : List String} : offsetIn? s ss = none ↔ s ∉ ss := by
  induction ss with
  | nil => simp [offsetIn?]
  | cons t ts ih =>
    rw [offsetIn?]
    split
    · rename_i ht
      simp [ht]
    · rename_i ht
      rw [Option.map_eq_none_iff, ih, List.mem_cons, not_or]
      exact ⟨fun h => ⟨fun hs => ht hs.symm, h⟩, And.right⟩

/-- **Strings that differ are placed in order,** each at the offset of its first place. -/
theorem place_eq_map {ss : List String} (h : ss.Nodup) (first : Nat) :
    place first ss = ss.map fun s => (UInt32.ofNat (first + (offsetIn? s ss).getD 0), s) := by
  induction ss generalizing first with
  | nil => rfl
  | cons t ts ih =>
    obtain ⟨ht, hts⟩ := List.nodup_cons.1 h
    rw [place, ih hts, List.map_cons, offsetIn?, if_pos rfl]
    refine congrArg _ (List.map_congr_left fun s hs => ?_)
    have hne : t ≠ s := by
      rintro rfl
      exact ht hs
    obtain ⟨o, ho⟩ := Option.ne_none_iff_exists'.1 (mt offsetIn?_eq_none_iff.1 (not_not_intro hs))
    rw [offsetIn?, if_neg hne, ho]
    simp only [Option.map_some, Option.getD_some]
    rw [Nat.add_assoc, Nat.add_comm (space t)]

/-- **The images of strings** take the space of the strings. -/
theorem length_flatMap_image (ss : List String) : (ss.flatMap image).length = spaceOf ss := by
  induction ss with
  | nil => rfl
  | cons s ss ih =>
    rw [List.flatMap_cons, List.length_append, ih, image, List.length_append, length_utf8]
    rfl

end Segment

namespace StringTable

open Segment

/-! ## Writing over zeros -/

/-- **Bytes that are written behind the first ones of an image** replace as many of the others. -/
theorem toList_copy {front rest bs : Bytes} {target : Array UInt8} (htarget : target.toList = front ++ rest)
    (hroom : bs.length ≤ rest.length) :
    (copy target front.length bs).toList = front ++ bs ++ rest.drop bs.length := by
  induction bs generalizing target front rest with
  | nil => rw [copy, htarget, List.append_nil, List.length_nil, List.drop_zero]
  | cons b bs ih =>
    cases rest with
    | nil => cases hroom
    | cons r rest =>
      have hset : (target.setIfInBounds front.length b).toList = (front ++ [b]) ++ rest := by
        rw [Array.toList_setIfInBounds, htarget, List.set_append_right _ _ (Nat.le_refl _), Nat.sub_self]
        simp
      have hlength : front.length + 1 = (front ++ [b]).length := by simp
      rw [copy, hlength, ih hset (Nat.le_of_succ_le_succ hroom)]
      simp

/-- **Strings written over zeros at their offsets** leave their images, if no offset wraps. -/
theorem toList_foldl_copy {ss : List String} {front : Bytes} {target : Array UInt8}
    (htarget : target.toList = front ++ List.replicate (spaceOf ss) 0)
    (hfits : front.length + spaceOf ss < 4294967296) :
    ((place front.length ss).foldl (fun image l => copy image l.1.toNat (utf8 l.2)) target).toList =
      front ++ ss.flatMap image := by
  induction ss generalizing front target with
  | nil =>
    rw [place, List.foldl_nil, htarget]
    rfl
  | cons s ss ih =>
    rw [spaceOf] at hfits htarget
    have hword : (UInt32.ofNat front.length).toNat = front.length :=
      UInt32.toNat_ofNat_of_lt' (Nat.lt_of_le_of_lt (by omega) hfits)
    have hroom : (utf8 s).length ≤ (List.replicate (space s + spaceOf ss) (0 : UInt8)).length := by
      rw [List.length_replicate, length_utf8, space]
      omega
    -- The string takes the first zeros but one, which stays as its end.
    have hzeros : space s + spaceOf ss - (utf8 s).length = 1 + spaceOf ss := by
      rw [length_utf8, space]
      omega
    have hcopied : (copy target front.length (utf8 s)).toList =
        (front ++ image s) ++ List.replicate (spaceOf ss) 0 := by
      rw [toList_copy htarget hroom, List.drop_replicate, hzeros, ← List.replicate_append_replicate, image]
      simp
    have hlength : front.length + space s = (front ++ image s).length := by
      rw [List.length_append, image, List.length_append, length_utf8]
      rfl
    rw [place, List.foldl_cons, hword, hlength, ih hcopied (by rw [← hlength]; omega), List.flatMap_cons,
      List.append_assoc]

/-! ## Words and numbers -/

namespace Consistent

variable {t : StringTable} (h : t.Consistent) (hfits : spaceOf t.strings < 4294967296)
include h hfits

/-- **The size is the space of the strings,** unless it wraps. -/
theorem toNat_size : t.size.toNat = spaceOf t.strings := by
  rw [h.size]
  exact UInt32.toNat_ofNat_of_lt' hfits

/-- **The offset of a string is the space of those before it,** unless it wraps. -/
theorem toNat_offset? (s : String) : (t.offset? s).map UInt32.toNat = offsetIn? s t.strings := by
  rw [h.offsets]
  cases ho : offsetIn? s t.strings with
  | none => rfl
  | some o =>
    have hend := offsetIn?_add_space ho
    have hlt : o < UInt32.size := Nat.lt_of_le_of_lt (by omega) hfits
    rw [Option.map_some, Option.map_some, UInt32.toNat_ofNat_of_lt' hlt]

theorem offset?_eq_some_iff {s : String} {o : UInt32} :
    t.offset? s = some o ↔ offsetIn? s t.strings = some o.toNat := by
  rw [← h.toNat_offset? hfits, Option.map_eq_some_iff]
  constructor
  · exact fun ho => ⟨o, ho, rfl⟩
  · rintro ⟨o', ho', hnumber⟩
    rw [ho', UInt32.toNat_inj.1 hnumber]

/-- **The placed strings have their offsets,** unless one wraps. -/
theorem map_literals (hnodup : t.strings.Nodup) :
    t.literals.map (fun l => (l.1.toNat, l.2)) = t.strings.map fun s => ((offsetIn? s t.strings).getD 0, s) := by
  rw [h.literals, place_eq_map hnodup, List.map_map]
  refine List.map_congr_left fun s hs => ?_
  obtain ⟨o, ho⟩ := Option.ne_none_iff_exists'.1 (mt offsetIn?_eq_none_iff.1 (not_not_intro hs))
  have hend := offsetIn?_add_space ho
  have hlt : o < UInt32.size := Nat.lt_of_le_of_lt (by omega) hfits
  rw [Function.comp_apply, ho, Option.getD_some, Nat.zero_add, UInt32.toNat_ofNat_of_lt' hlt]

/-- **The bytes are the strings one after the other,** each with a zero byte behind it. -/
theorem bytes_eq : t.bytes = t.strings.flatMap image := by
  have hzeros :
      (Array.replicate t.size.toNat (0 : UInt8)).toList = [] ++ List.replicate (spaceOf t.strings) 0 := by
    rw [h.toNat_size hfits, Array.toList_replicate, List.nil_append]
  have hall : ([] : Bytes).length + spaceOf t.strings < 4294967296 := by
    rwa [List.length_nil, Nat.zero_add]
  unfold bytes
  rw [h.literals]
  exact toList_foldl_copy hzeros hall

end Consistent

/-! ## Calls -/

/-- Interns strings one after the other: the offset that each call gives, and the table after them. -/
def internAll (t : StringTable) : (calls : List String) → List UInt32 × StringTable
  | [] => ([], t)
  | s :: calls =>
    let rest := internAll (t.intern s).2 calls
    ((t.intern s).1 :: rest.1, rest.2)

/-- The distinct strings of calls in the order of their first calls, each with a zero byte behind it. -/
def layout (calls : List String) : Bytes := calls.eraseDups.flatMap fun s => utf8 s ++ [0]

/-- The calls before the first one with a string. -/
def callsBefore (s : String) (calls : List String) : List String := calls.takeWhile (· != s)

/-- **Calls keep the fields in agreement.** -/
theorem Consistent.internAll {t : StringTable} (h : t.Consistent) (calls : List String) :
    (t.internAll calls).2.Consistent := by
  induction calls generalizing t with
  | nil => exact h
  | cons s calls ih => exact ih (h.intern s)

/-- **Interning a string that is placed changes nothing,** and gives its offset. -/
theorem intern_of_offset? {t : StringTable} {s : String} {o : UInt32} (h : t.offset? s = some o) :
    t.intern s = (o, t) := by
  unfold intern
  rw [h]

/-- **A string without an offset** is one that is not placed. -/
theorem Consistent.offset?_eq_none_iff {t : StringTable} (h : t.Consistent) {s : String} :
    t.offset? s = none ↔ s ∉ t.strings := by
  rw [h.offsets, Option.map_eq_none_iff, offsetIn?_eq_none_iff]

/-- **One more call** places its string just if it is a new one. -/
theorem Consistent.strings_intern {t : StringTable} (h : t.Consistent) {calls : List String}
    (hcalls : t.strings = calls.eraseDups) (s : String) : (t.intern s).2.strings = (calls ++ [s]).eraseDups := by
  have hmem : s ∈ t.strings ↔ s ∈ calls := by rw [hcalls, List.mem_eraseDups]
  rw [List.eraseDups_append, ← hcalls]
  cases ho : t.offset? s with
  | some o =>
    have hs : s ∈ calls := by
      refine Decidable.byContradiction fun hs => ?_
      rw [h.offset?_eq_none_iff.2 (mt hmem.1 hs)] at ho
      cases ho
    rw [intern_of_offset? ho]
    simp [List.removeAll, hs]
  | none =>
    have hs : s ∉ calls := mt hmem.2 (h.offset?_eq_none_iff.1 ho)
    simp [StringTable.intern, ho, strings, List.removeAll, hs, List.eraseDups_cons]

/-- **Equal strings are placed once.** -/
theorem Consistent.nodup_intern {t : StringTable} (h : t.Consistent) (hnodup : t.strings.Nodup) (s : String) :
    (t.intern s).2.strings.Nodup := by
  cases ho : t.offset? s with
  | some o => rwa [intern_of_offset? ho]
  | none =>
    have hstrings : (t.intern s).2.strings = t.strings ++ [s] := by
      simp [StringTable.intern, ho, strings]
    rw [hstrings, List.nodup_append]
    refine ⟨hnodup, by simp, fun a ha b hb => ?_⟩
    rw [List.mem_singleton.1 hb]
    rintro rfl
    exact h.offset?_eq_none_iff.1 ho ha

theorem Consistent.nodup_internAll {t : StringTable} (h : t.Consistent) (hnodup : t.strings.Nodup)
    (calls : List String) : (t.internAll calls).2.strings.Nodup := by
  induction calls generalizing t with
  | nil => exact hnodup
  | cons s calls ih => exact ih (h.intern s) (h.nodup_intern hnodup s)

/-- **Calls only add strings.** -/
theorem isInitial_internAll (t : StringTable) (calls : List String) :
    t.strings <+: (t.internAll calls).2.strings := by
  induction calls generalizing t with
  | nil => exact List.prefix_refl _
  | cons s calls ih => exact (t.strings_intern s).trans (ih _)

/-- **Calls after calls:** what is placed is what all of them name, without the repetitions. -/
theorem Consistent.strings_internAll {t : StringTable} (h : t.Consistent) {before : List String}
    (hbefore : t.strings = before.eraseDups) (calls : List String) :
    (t.internAll calls).2.strings = (before ++ calls).eraseDups := by
  induction calls generalizing t before with
  | nil => rw [List.append_nil, ← hbefore, StringTable.internAll]
  | cons s calls ih =>
    rw [StringTable.internAll, ih (h.intern s) (h.strings_intern hbefore s), List.append_assoc]
    rfl

/-- **Each call gives the offset** that its string has in the end. -/
theorem Consistent.map_internAll {t : StringTable} (h : t.Consistent) (calls : List String) :
    (t.internAll calls).1.map some = calls.map (t.internAll calls).2.offset? := by
  induction calls generalizing t with
  | nil => rfl
  | cons s calls ih =>
    have hnext := h.intern s
    have hplaced := hnext.offset?_of_strings (hnext.internAll calls) (isInitial_internAll _ calls)
      (t.offset?_intern s)
    rw [StringTable.internAll, List.map_cons, List.map_cons, ih hnext, hplaced]

/-! ## Places -/

/-- **The space of strings** is the length of their images. -/
theorem length_layout (calls : List String) : (layout calls).length = spaceOf calls.eraseDups :=
  length_flatMap_image calls.eraseDups

/-- **The first call with a string** cuts the calls in two, and the strings that are placed. -/
theorem eraseDups_eq_of_mem {s : String} {calls : List String} (h : s ∈ calls) :
    ∃ more, calls.eraseDups = (callsBefore s calls).eraseDups ++ s :: more ∧ s ∉ callsBefore s calls := by
  obtain ⟨before, after, rfl, hs⟩ := List.eq_append_cons_of_mem h
  have hbefore : callsBefore s (before ++ s :: after) = before := by
    unfold callsBefore
    rw [List.takeWhile_append_of_pos]
    · simp
    · intro t ht
      simp only [bne_iff_ne, ne_eq]
      rintro rfl
      exact hs ht
  refine ⟨((after.removeAll before).filter fun t => !t == s).eraseDups, ?_, ?_⟩
  · rw [hbefore, List.eraseDups_append, List.cons_removeAll, if_pos (by simpa using hs), List.eraseDups_cons]
  · rwa [hbefore]

/-- **A string stands behind those that were called before it.** -/
theorem offsetIn?_eraseDups {s : String} {calls : List String} (h : s ∈ calls) :
    offsetIn? s calls.eraseDups = some (layout (callsBefore s calls)).length := by
  obtain ⟨more, hplaced, hs⟩ := eraseDups_eq_of_mem h
  have hnew : offsetIn? s (callsBefore s calls).eraseDups = none := by
    rw [offsetIn?_eq_none_iff, List.mem_eraseDups]
    exact hs
  rw [hplaced, length_layout, List.append_cons]
  exact offsetIn?_append (offsetIn?_append_self hnew) more

theorem offsetIn?_eraseDups_eq_some_iff {s : String} {calls : List String} {n : Nat} :
    offsetIn? s calls.eraseDups = some n ↔ s ∈ calls ∧ n = (layout (callsBefore s calls)).length := by
  by_cases hs : s ∈ calls
  · rw [offsetIn?_eraseDups hs, Option.some.injEq]
    exact ⟨fun hn => ⟨hs, hn.symm⟩, fun hn => hn.2.symm⟩
  · have hnone : offsetIn? s calls.eraseDups = none := by
      rw [offsetIn?_eq_none_iff, List.mem_eraseDups]
      exact hs
    rw [hnone]
    constructor
    · rintro ⟨⟩
    · exact fun hn => absurd hn.1 hs

/-- **Interning lays strings out densely in the order of their first use.**  Let calls on the empty table name
strings that take less than `2³²` bytes.  Then the bytes are the distinct strings in the order of their first
calls, each followed by a zero byte, and the size is their number.  Every call, the first one with its string or
a later one, gives the number of bytes that the distinct strings called before the string's first call take.
The placed strings are those of the calls in order, each with that offset, and the offset that is looked up is
the same one, for these strings alone.  To intern one of them again gives its offset and leaves the table as it
is. -/
theorem internAll_dense {calls : List String} (hfits : (layout calls).length < 4294967296) :
    (empty.internAll calls).2.bytes = layout calls ∧
    (empty.internAll calls).2.size.toNat = (layout calls).length ∧
    (empty.internAll calls).1.map UInt32.toNat = calls.map (fun s => (layout (callsBefore s calls)).length) ∧
    (empty.internAll calls).2.literals.map (fun l => (l.1.toNat, l.2)) =
      calls.eraseDups.map (fun s => ((layout (callsBefore s calls)).length, s)) ∧
    (∀ s o, (empty.internAll calls).2.offset? s = some o ↔
      s ∈ calls ∧ o.toNat = (layout (callsBefore s calls)).length) ∧
    ∀ s ∈ calls, ∃ o, o.toNat = (layout (callsBefore s calls)).length ∧
      (empty.internAll calls).2.intern s = (o, (empty.internAll calls).2) := by
  have hconsistent := Consistent.empty.internAll calls
  have hempty : empty.strings = List.eraseDups [] := rfl
  have hstrings : (empty.internAll calls).2.strings = calls.eraseDups :=
    Consistent.empty.strings_internAll hempty calls
  have hspace : spaceOf (empty.internAll calls).2.strings < 4294967296 := by
    rwa [hstrings, ← length_layout]
  have hoffset {s : String} (hs : s ∈ calls) :
      ((empty.internAll calls).2.offset? s).map UInt32.toNat = some (layout (callsBefore s calls)).length := by
    rw [hconsistent.toNat_offset? hspace, hstrings, offsetIn?_eraseDups hs]
  refine ⟨?_, ?_, ?_, ?_, fun s o => ?_, fun s hs => ?_⟩
  · rw [hconsistent.bytes_eq hspace, hstrings]
    rfl
  · rw [hconsistent.toNat_size hspace, hstrings, length_layout]
  · -- What the calls gave is what is looked up in the end.
    have hgiven := congrArg (List.map (Option.map UInt32.toNat)) (Consistent.empty.map_internAll calls)
    rw [List.map_map, List.map_map] at hgiven
    rw [← List.map_inj_right (fun _ _ => Option.some.inj), List.map_map, List.map_map]
    exact hgiven.trans (List.map_congr_left fun s hs => hoffset hs)
  · have hnodup := Consistent.empty.nodup_internAll List.nodup_nil calls
    rw [hconsistent.map_literals hspace hnodup, hstrings]
    refine List.map_congr_left fun s hs => ?_
    rw [offsetIn?_eraseDups (List.mem_eraseDups.1 hs), Option.getD_some]
  · rw [hconsistent.offset?_eq_some_iff hspace, hstrings, offsetIn?_eraseDups_eq_some_iff]
  · obtain ⟨o, ho, hnumber⟩ := Option.map_eq_some_iff.1 (hoffset hs)
    exact ⟨o, hnumber, intern_of_offset? ho⟩

end StringTable

namespace Tally

/-- Calls with a repetition, the empty string, a string that starts another one, and a letter of two bytes. -/
def calls : List String := ["ab", "", "a", "ab", "é"]

/-- **Five calls place four strings,** and the repeated one is found at the front, by then and later. -/
theorem internAll_dense_calls :
    (StringTable.layout calls).length < 4294967296 ∧
    (StringTable.empty.internAll calls).1.map UInt32.toNat = [0, 3, 4, 0, 6] ∧
    (StringTable.empty.internAll calls).2.literals.map (fun l => (l.1.toNat, l.2)) =
      [(0, "ab"), (3, ""), (4, "a"), (6, "é")] ∧
    (StringTable.empty.internAll calls).2.bytes = [97, 98, 0, 0, 97, 0, 195, 169, 0] ∧
    "ab" ∈ calls ∧
    (∃ o, o.toNat = 0 ∧
      (StringTable.empty.internAll calls).2.intern "ab" = (o, (StringTable.empty.internAll calls).2)) ∧
    (StringTable.empty.internAll calls).2.offset? "b" ≠ some 1 := by
  have hfits : (StringTable.layout calls).length < 4294967296 := by decide
  obtain ⟨hbytes, -, hoffsets, hliterals, hiff, hagain⟩ := StringTable.internAll_dense hfits
  have hmem : "ab" ∈ calls := List.mem_cons_self
  refine ⟨hfits, hoffsets, hliterals, hbytes, hmem, hagain "ab" hmem, fun h => ?_⟩
  have hb : "b" ∉ calls := by decide
  exact hb ((hiff "b" 1).1 h).1

end Tally

end WasmLowering
