/-
# The types of a module, read back

Each function type is written as a definition that stands alone.  Equal ones get
one number: a definition that was met before adds an index and nothing else.

A type space `Holds` function types if index `i` leads to the signature of type
`i`.  For the next definition to be found or added rightly, the space also has to
be `Consistent`: the number of a group that is known is the number of its
definition.
-/

import WasmLowering.Proofs.Checking
import WasmLowering.Proofs.Reading
import WasmLowering.Wasm.Items

namespace WasmLowering
namespace Wasm

/-! ## Reading definitions -/

namespace Reads

/-- **The definition of a function type is read back.** -/
theorem typeGroup {t : FuncType} (hp : t.params.length ≤ Reader.arityLimit)
    (hr : t.results.length ≤ Reader.arityLimit) :
    Reads Reader.typeGroup (Encode.funcType t) (· = [t.definition]) := by
  have hlimit : Reader.arityLimit < 4294967296 := by decide
  have hsignature : Reads Reader.signature
      (Encode.list (fun k => [kindByte k]) t.params ++ Encode.list (fun k => [kindByte k]) t.results)
      (· = t.signature) := by
    refine (limited _ hlimit hp fun k _ => valType k).bind ?_
    rintro _ rfl
    refine (limited _ hlimit hr fun k _ => valType k).map ?_
    rintro _ rfl
    rfl
  have hshape : Reads Reader.shape (Encode.funcType t) (· = .func t.signature) := by
    refine .bindNil .position fun here _ => .byteBind ?_
    refine hsignature.map ?_
    rintro _ rfl
    rfl
  -- The byte of a function type is none of the marks that may stand before a definition.
  have hdef : Reads Reader.typeDef (Encode.funcType t) (· = t.definition) := by
    refine (Looks.marked (by decide) _).bind ?_
    refine (Looks.marked (by decide) _).bind ?_
    refine (Looks.marked (by decide) _).bind ?_
    refine (Looks.link (by decide) _).bind ?_
    refine (Looks.link (by decide) _).bind ?_
    refine hshape.map ?_
    rintro _ rfl
    rfl
  refine (Looks.marked (by decide) _).bind ?_
  refine hdef.map ?_
  rintro _ rfl
  rfl

end Reads

/-! ## Type spaces -/

section Kinds

variable {ε : Type} (f : Nat → Except ε Nat)

/-- **Number types have no numbers of defined types** to replace. -/
theorem renumber_valTypes (ks : List Kind) :
    (valTypes ks).mapM (ValType.renumber f) = .ok (valTypes ks) := by
  induction ks with
  | nil => rfl
  | cons k ks ih =>
    have hk : ValType.renumber f (.ofKind k) = .ok (.ofKind k) := by cases k <;> rfl
    rw [valTypes, List.map_cons, List.mapM_cons, hk]
    show ((valTypes ks).mapM (ValType.renumber f) >>= _) = _
    rw [ih]
    rfl

/-- **Function types refer to no defined types.** -/
theorem FuncType.renumber_definition (t : FuncType) : t.definition.renumber f = .ok t.definition := by
  have hsig : t.signature.renumber f = .ok t.signature := by
    rw [Signature.renumber, FuncType.signature, renumber_valTypes]
    show ((valTypes t.results).mapM (ValType.renumber f) >>= _) = _
    rw [renumber_valTypes]
    rfl
  show ((t.signature.renumber f).map Shape.func >>= _) = _
  rw [hsig]
  rfl

/-- **Number types are supported.** -/
theorem unsupported_valTypes (ks : List Kind) :
    (valTypes ks).findSome? ValType.unsupported? = none := by
  rw [List.findSome?_eq_none_iff]
  intro t ht
  obtain ⟨k, -, rfl⟩ := List.mem_map.1 ht
  cases k <;> rfl

end Kinds

namespace TypeSpace

/-- The number of the type with an index. -/
def numberAt (s : TypeSpace) (index : Nat) : Nat := (s.numbers[index]?).getD 0

/-- A type space has function types under their indices. -/
structure Holds (s : TypeSpace) (types : List FuncType) : Prop where
  size : s.numbers.size = types.length
  number {i : Nat} {t : FuncType} : types[i]? = some t → s.defs[s.numberAt i]? = some t.definition

/-- Each known group is one function type, and its number is that of its definition. -/
def Consistent (s : TypeSpace) : Prop :=
  ∀ g ∈ s.groups, ∃ t : FuncType, g.2 = [t.definition] ∧ s.defs[g.1]? = some t.definition

variable {s : TypeSpace} {types : List FuncType}

/-- **The number of an index** that is there. -/
theorem Holds.numbers_eq (h : s.Holds types) {i : Nat} (hi : i < types.length) :
    s.numbers[i]? = some (s.numberAt i) := by
  have hi : i < s.numbers.size := h.size ▸ hi
  rw [numberAt, Array.getElem?_eq_getElem hi]
  rfl

/-- **A function type is kept as it is defined.** -/
theorem groupKey_definition (s : TypeSpace) (index : Nat) (t : FuncType) :
    s.groupKey 1 index [t.definition] = .ok [t.definition] := by
  show (t.definition.renumber (s.groupNumber 1) >>= _) = _
  rw [FuncType.renumber_definition]
  rfl

/-- **A function type passes its check.** -/
theorem checkDefs_definition (s : TypeSpace) (first : Nat) (t : FuncType) :
    s.checkDefs first [t.definition] = .ok () := by
  have hsupported : t.definition.unsupported? = none := by
    show ((valTypes t.params ++ valTypes t.results).findSome? ValType.unsupported?) = none
    rw [List.findSome?_append, unsupported_valTypes, unsupported_valTypes]
    rfl
  have hdef : s.checkDef first t.definition = .ok () := by
    unfold checkDef
    rw [hsupported]
    rfl
  rw [checkDefs, hdef]
  rfl

/-- **One more index** leads to one more type, if what was defined stays. -/
theorem Holds.push (h : s.Holds types) {s' : TypeSpace} {t : FuncType} {n : Nat}
    (hnumbers : s'.numbers = s.numbers ++ #[n])
    (hdefs : ∀ (j : Nat) (d : TypeDef), s.defs[j]? = some d → s'.defs[j]? = some d)
    (hn : s'.defs[n]? = some t.definition) : s'.Holds (types ++ [t]) where
  size := by
    rw [hnumbers, Array.size_append, h.size, List.length_append]
    rfl
  number {i u} hi := by
    by_cases hlt : i < types.length
    · rw [List.getElem?_append_left hlt] at hi
      have hsame : s'.numberAt i = s.numberAt i := by
        rw [numberAt, numberAt, hnumbers, Array.getElem?_append_left (h.size ▸ hlt)]
      rw [hsame]
      exact hdefs _ _ (h.number hi)
    · have hlen := (List.getElem?_eq_some_iff.1 hi).1
      rw [List.length_append, List.length_singleton] at hlen
      obtain rfl : i = types.length := by omega
      rw [List.getElem?_append_right (Nat.le_refl _), Nat.sub_self] at hi
      obtain rfl : t = u := Option.some.inj hi
      have hlast : s'.numberAt types.length = n := by
        rw [numberAt, hnumbers, ← h.size, Array.getElem?_append_right (Nat.le_refl _), Nat.sub_self]
        rfl
      rw [hlast]
      exact hn

/-- **What adding a function type makes of a space:** one more index and, if the type was not met before,
one more definition and one more group. -/
theorem define_eq (s : TypeSpace) (t : FuncType) :
    s.define [t.definition] = .ok (match s.groups.find? fun g => g.2 == [t.definition] with
      | some g => { s with numbers := s.numbers ++ #[g.1] }
      | none =>
        { numbers := s.numbers ++ #[s.defs.size]
          defs := s.defs ++ #[t.definition]
          groups := s.groups ++ [(s.defs.size, [t.definition])] }) := by
  have hone : ∀ f : Nat → Except Violation Nat,
      [t.definition].mapM (TypeDef.renumber f) = .ok [t.definition] := by
    intro f
    rw [List.mapM_cons, FuncType.renumber_definition]
    rfl
  unfold define
  simp only [List.length_singleton, groupKey_definition, bind, Except.bind]
  cases s.groups.find? fun g => g.2 == [t.definition] with
  | some g => rfl
  | none =>
    simp only [hone, checkDefs_definition]
    rfl

/-- **A function type can be added.**  If it was met before, it has the number it had. -/
theorem define_definition (h : s.Holds types) (hc : s.Consistent) (t : FuncType) :
    ∃ s', s.define [t.definition] = .ok s' ∧ s'.Holds (types ++ [t]) ∧ s'.Consistent := by
  refine ⟨_, define_eq s t, ?_⟩
  cases hfind : s.groups.find? fun g => g.2 == [t.definition] with
  | some g =>
    obtain ⟨u, hgu, hdef⟩ := hc g (List.mem_of_find?_eq_some hfind)
    have hfound := List.find?_some hfind
    have hkey : g.2 = [t.definition] := eq_of_beq hfound
    rw [hgu] at hkey
    rw [(List.cons.inj hkey).1] at hdef
    exact ⟨h.push rfl (fun _ _ hd => hd) hdef, hc⟩
  | none =>
    have hkeep : ∀ (j : Nat) (d : TypeDef), s.defs[j]? = some d → (s.defs ++ #[t.definition])[j]? = some d := by
      intro j d hd
      rw [Array.getElem?_append_left (Array.getElem?_eq_some_iff.1 hd).1, hd]
    have hlast : (s.defs ++ #[t.definition])[s.defs.size]? = some t.definition := by
      rw [Array.getElem?_append_right (Nat.le_refl _), Nat.sub_self]
      rfl
    refine ⟨h.push rfl hkeep hlast, List.forall_mem_append.2 ⟨fun g hg => ?_, ?_⟩⟩
    · obtain ⟨u, hgu, hdef⟩ := hc g hg
      exact ⟨u, hgu, hkeep _ _ hdef⟩
    · exact List.forall_mem_singleton.2 ⟨t, rfl, hlast⟩

end TypeSpace

end Wasm
end WasmLowering
