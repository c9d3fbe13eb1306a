/-
# Kinds from types

The converse of `WasmLowering.Proofs.CodeTyping`: if the code of an expression has
a type, the expression has a kind.  Two things are lost in lowering and cannot be
told from the code, so they are asked of the expression, which `isRegular` then:

| construct                | what is lost        | what is asked                              |
|--------------------------|---------------------|--------------------------------------------|
| call                     | which operands are its arguments | no more arguments than parameters |
| cast that has no code    | that there is a cast | an operand of the kind of the source       |

A call with too few arguments would take words from below, and then fewer words
are left than one for each expression.  Nothing could make up for them but a call
with too many, so where there is none, counting words (`Recovers`) rules it out.

An expression that has a kind is regular.  For one whose code has a type, being
regular and having a kind is the same.
-/

import WasmLowering.Proofs.OrderlyLowering

namespace WasmLowering

open Wasm Lower

/-! ## The kind that an expression is to have -/

/-- Whether a cast has no code. -/
def Width.isSilentCast (source target : Width) : Bool :=
  match source.castTo target with
  | .ok [] => true
  | _ => false

/-- The type of the function that a name stands for. -/
def Scope.callee? (scope : Scope) (spaces : IndexSpaces) (name : String) : Option FuncType :=
  scope.function? name >>= (spaces.functions[·]?)

namespace Expr

section Told

variable (spaces : IndexSpaces) (scope : Scope) (vars : List Kind)

mutual

/-- The kind of the word that an expression leaves if it has one. -/
def kind? : Expr → Option Kind
  | var i => vars[i]?
  | global name => scope.global? name >>= (spaces.globals[·]?)
  | literal w _ => some w.kind
  | binary op w _ _ => some (op.resultKind w)
  | call name _ => (scope.callee? spaces name).map (·.results.headD .i32)
  | bufRead size _ _ => some (elementKind size)
  | cast _ _ target => some target.kind
  | ifThenElse _ _ _ w => some w.kind
  | sequence items => lastKind? items
  | _ => some .i32

/-- The kind of the word that the last one of some expressions leaves. -/
def lastKind? : List Expr → Option Kind
  | [] => some .i32
  | [e] => e.kind?
  | _ :: next :: es => lastKind? (next :: es)

end

mutual

/-- Whether no call within an expression has more arguments than there are parameters, and every cast
without code is of a word of its source. -/
def isRegular : Expr → Bool
  | binary _ _ lhs rhs => lhs.isRegular && rhs.isRegular
  | call name args => (scope.callee? spaces name).any (args.length ≤ ·.params.length) && areRegular args
  | bufCreate _ count => count.isRegular
  | bufRead _ base index => base.isRegular && index.isRegular
  | bufWrite _ base index value => base.isRegular && index.isRegular && value.isRegular
  | bufSub _ base index => base.isRegular && index.isRegular
  | cast operand source target =>
    (!source.isSilentCast target || operand.kind? spaces scope vars == some source.kind) && operand.isRegular
  | ifThenElse cond whenTrue whenFalse _ => cond.isRegular && whenTrue.isRegular && whenFalse.isRegular
  | assign _ value => value.isRegular
  | whileLoop cond body => cond.isRegular && body.isRegular
  | ignore operand => operand.isRegular
  | sequence items => areRegular items
  | _ => true

/-- Whether all of some expressions are regular. -/
def areRegular : List Expr → Bool
  | [] => true
  | e :: es => e.isRegular && areRegular es

end

end Told

end Expr

section Told

variable {spaces : IndexSpaces} {scope : Scope} {vars : List Kind}

/-- **A bound name has the type of its function.** -/
theorem Scope.callee?_eq {name : String} {i : Nat} {t : FuncType} (hi : scope.function? name = some i)
    (ht : spaces.functions[i]? = some t) : scope.callee? spaces name = some t := by
  rw [Scope.callee?, hi]
  exact ht

/-- **An expression has one kind at most,** which its outermost construct tells. -/
theorem HasKind.kind?_eq : ∀ {e : Expr} {k : Kind}, HasKind spaces scope vars e k →
    e.kind? spaces scope vars = some k
  | _, _, .var hk => hk
  | _, _, .global hi hk => by
    rw [Expr.kind?, hi]
    exact hk
  | _, _, .call hi ht _ hk | _, _, .callVoid hi ht _ hk => by
    rw [Expr.kind?, Scope.callee?_eq hi ht, Option.map_some, hk]
    rfl
  | _, _, .last he => he.kind?_eq
  | _, _, .sequence _ hes => hes.kind?_eq
  | _, _, .literal | _, _, .string | _, _, .binary _ _ | _, _, .bufCreate _ | _, _, .bufRead _ _
  | _, _, .bufWrite _ _ _ | _, _, .bufSub _ _ | _, _, .cast _ | _, _, .ifThenElse _ _ _ | _, _, .assign _ _
  | _, _, .whileLoop _ _ | _, _, .ignore _ | _, _, .empty | _, _, .pushFrame | _, _, .popFrame => rfl

theorem HaveKinds.length_eq : ∀ {es : List Expr} {ks : List Kind}, HaveKinds spaces scope vars es ks →
    es.length = ks.length
  | _, _, .nil => rfl
  | _, _, .cons _ hes => congrArg (· + 1) hes.length_eq

mutual

/-- **An expression that has a kind is regular.** -/
theorem HasKind.isRegular : ∀ {e : Expr} {k : Kind}, HasKind spaces scope vars e k →
    e.isRegular spaces scope vars = true
  | _, _, .binary hl hr => by rw [Expr.isRegular, hl.isRegular, hr.isRegular]; rfl
  | _, _, .call hi ht hargs _ | _, _, .callVoid hi ht hargs _ => by
    rw [Expr.isRegular, Scope.callee?_eq hi ht, hargs.areRegular, Option.any_some, hargs.length_eq]
    simp
  | _, _, .bufCreate hn => by rw [Expr.isRegular, hn.isRegular]
  | _, _, .bufRead hb hi | _, _, .bufSub hb hi => by rw [Expr.isRegular, hb.isRegular, hi.isRegular]; rfl
  | _, _, .bufWrite hb hi hv => by rw [Expr.isRegular, hb.isRegular, hi.isRegular, hv.isRegular]; rfl
  | _, _, .cast he => by
    rw [Expr.isRegular, he.isRegular, he.kind?_eq]
    simp
  | _, _, .ifThenElse hc ht hf => by rw [Expr.isRegular, hc.isRegular, ht.isRegular, hf.isRegular]; rfl
  | _, _, .assign _ hv => by rw [Expr.isRegular, hv.isRegular]
  | _, _, .whileLoop hc hb => by rw [Expr.isRegular, hc.isRegular, hb.isRegular]; rfl
  | _, _, .ignore he => by rw [Expr.isRegular, he.isRegular]
  | _, _, .last he => by rw [Expr.isRegular, Expr.areRegular, he.isRegular]; rfl
  | _, _, .sequence he hes => by
    have hrest := hes.isRegular
    rw [Expr.isRegular] at hrest ⊢
    rw [Expr.areRegular, he.isRegular, hrest]
    rfl
  | _, _, .var _ | _, _, .global _ _ | _, _, .literal | _, _, .string | _, _, .empty | _, _, .pushFrame
  | _, _, .popFrame => rfl

theorem HaveKinds.areRegular : ∀ {es : List Expr} {ks : List Kind}, HaveKinds spaces scope vars es ks →
    Expr.areRegular spaces scope vars es = true
  | _, _, .nil => rfl
  | _, _, .cons he hes => by rw [Expr.areRegular, he.isRegular, hes.areRegular]; rfl

end

end Told

/-! ## What typed code takes -/

namespace Wasm

variable {spaces : IndexSpaces} {locals : List Kind} {labels : List (List Kind)} {ks ks' : List Kind}

/-- **Code in two pieces** leaves in between what the second one takes. -/
theorem Code.HasType.of_append {a b : Code} (h : Code.HasType spaces locals labels (a ++ b) ks ks') :
    ∃ mid, Code.HasType spaces locals labels a ks mid ∧ Code.HasType spaces locals labels b mid ks' := by
  induction a generalizing ks with
  | nil => exact ⟨ks, .nil, h⟩
  | cons i is ih =>
    cases h with
    | cons hi his =>
      obtain ⟨mid, ha, hb⟩ := ih his
      exact ⟨mid, .cons hi ha, hb⟩

theorem Code.HasType.of_single {i : Instr} (h : Code.HasType spaces locals labels [i] ks ks') :
    Instr.HasType spaces locals labels i ks ks' := by
  cases h with
  | cons hi hnil =>
    cases hnil
    exact hi

/-- **Arithmetic** takes two words of its kind and leaves one. -/
theorem Instr.HasType.of_arith {k : Kind} {op : IntOp}
    (h : Instr.HasType spaces locals labels (.arith k op) ks ks') :
    ∃ rest, ks = k :: k :: rest ∧ ks' = k :: rest := by
  cases h with
  | words hp =>
    match ks, hp with
    | b :: a :: rest, hp =>
      obtain ⟨⟨rfl, rfl⟩, ⟨⟩⟩ := Option.ite_none_right_eq_some.1 hp
      exact ⟨rest, rfl, rfl⟩

/-- **A comparison** takes two words of its kind and leaves a truth value. -/
theorem Instr.HasType.of_compare {k : Kind} {rel : IntRel}
    (h : Instr.HasType spaces locals labels (.compare k rel) ks ks') :
    ∃ rest, ks = k :: k :: rest ∧ ks' = .i32 :: rest := by
  cases h with
  | words hp =>
    match ks, hp with
    | b :: a :: rest, hp =>
      obtain ⟨⟨rfl, rfl⟩, ⟨⟩⟩ := Option.ite_none_right_eq_some.1 hp
      exact ⟨rest, rfl, rfl⟩

/-- **A conversion** takes a word of its source and leaves one of its target. -/
theorem Instr.HasType.of_convert {c : Conversion}
    (h : Instr.HasType spaces locals labels (.convert c) ks ks') :
    ∃ rest, ks = c.source :: rest ∧ ks' = c.target :: rest := by
  cases h with
  | words hp =>
    match ks, hp with
    | a :: rest, hp =>
      obtain ⟨rfl, ⟨⟩⟩ := Option.ite_none_right_eq_some.1 hp
      exact ⟨rest, rfl, rfl⟩

/-- **A drop** takes any word. -/
theorem Instr.HasType.of_drop (h : Instr.HasType spaces locals labels .drop ks ks') :
    ∃ k, ks = k :: ks' := by
  cases h with
  | words hp =>
    match ks, hp with
    | k :: rest, hp =>
      cases hp
      exact ⟨k, rfl⟩

/-- **A constant** takes nothing. -/
theorem Instr.HasType.of_const {v : Value} (h : Instr.HasType spaces locals labels (.const v) ks ks') :
    ks' = v.kind :: ks := by
  cases h with
  | words hp => exact (Option.some.inj hp).symm

/-- **A store to a local** takes a word of the local's kind. -/
theorem Instr.HasType.of_localSet {i : Nat} (h : Instr.HasType spaces locals labels (.localSet i) ks ks') :
    ∃ k, locals[i]? = some k ∧ ks = k :: ks' := by
  cases h with
  | words hp => cases hp
  | localSet hk => exact ⟨_, hk, rfl⟩

/-- **A load** takes an address. -/
theorem Instr.HasType.of_load {op : LoadOp} {arg : MemArg}
    (h : Instr.HasType spaces locals labels (.load op arg) ks ks') :
    ∃ rest, ks = .i32 :: rest ∧ ks' = op.kind :: rest := by
  cases h with
  | words hp => cases hp
  | load _ => exact ⟨_, rfl, rfl⟩

/-- **A store** takes a word and an address. -/
theorem Instr.HasType.of_store {op : StoreOp} {arg : MemArg}
    (h : Instr.HasType spaces locals labels (.store op arg) ks ks') : ks = op.kind :: .i32 :: ks' := by
  cases h with
  | words hp => cases hp
  | store _ => rfl

end Wasm

section Pieces

variable {spaces : IndexSpaces} {locals : List Kind} {labels : List (List Kind)} {ks ks' : List Kind}

/-- **The instruction of an operator** is arithmetic or a comparison on the width's kind. -/
theorem Operator.instr_eq_ok {op : Operator} {w : Width} {i : Instr} (h : op.instr w = .ok i) :
    (∃ o, i = .arith w.kind o) ∨ ∃ r, i = .compare w.kind r := by
  unfold instr at h
  split at h
  · rename_i hw
    subst hw
    cases op <;> cases h <;> first | exact .inl ⟨_, rfl⟩ | exact .inr ⟨_, rfl⟩
  · split at h
    · cases h
    · unfold intInstr? at h
      cases ha : op.arith? w.signed with
      | some a =>
        rw [ha] at h
        cases h
        exact .inl ⟨a, rfl⟩
      | none =>
        cases hr : op.rel? w.signed with
        | some r =>
          rw [ha, hr] at h
          cases h
          exact .inr ⟨r, rfl⟩
        | none =>
          rw [ha, hr] at h
          cases h

/-- **The code of an operator** takes two words of the width's kind. -/
theorem Operator.hasType_lower {op : Operator} {w : Width} {code : Code} (hlower : op.lower w = .ok code)
    (h : Code.HasType spaces locals labels code ks ks') :
    ∃ rest, ks = w.kind :: w.kind :: rest ∧ ks' = op.resultKind w :: rest := by
  have hknown (rest : List Kind) : Code.HasType spaces locals labels code (w.kind :: w.kind :: rest)
      (op.resultKind w :: rest) := .words rest (Operator.onKinds_lower hlower)
  have hstraight := Code.isStraight_of_onKinds (Operator.onKinds_lower hlower)
  obtain ⟨i, hi, hcode⟩ := ok_of_map hlower
  obtain ⟨is, rfl⟩ : ∃ is, code = i :: is := by
    split at hcode
    · exact ⟨[], hcode.symm⟩
    · exact ⟨w.mask, hcode.symm⟩
  suffices htakes : ∃ rest, ks = w.kind :: w.kind :: rest by
    obtain ⟨rest, rfl⟩ := htakes
    exact ⟨rest, rfl, h.unique hstraight (hknown rest)⟩
  cases h with
  | cons hfirst _ =>
    rcases Operator.instr_eq_ok hi with ⟨o, rfl⟩ | ⟨r, rfl⟩
    · obtain ⟨rest, rfl, -⟩ := hfirst.of_arith
      exact ⟨rest, rfl⟩
    · obtain ⟨rest, rfl, -⟩ := hfirst.of_compare
      exact ⟨rest, rfl⟩

/-- **The code that cuts a word** is none, or takes an `i32`. -/
theorem Width.hasType_mask {w : Width} (h : Code.HasType spaces locals labels w.mask ks ks') :
    w.mask = [] ∧ ks' = ks ∨ ∃ rest, ks = .i32 :: rest := by
  unfold mask at h ⊢
  split at h
  · cases h with
    | cons hconst hand =>
      obtain rfl := hconst.of_const
      obtain ⟨rest, hrest, -⟩ := hand.of_single.of_arith
      exact .inr ⟨rest, (List.cons.inj hrest).2⟩
  · rename_i hw
    cases h
    exact .inl ⟨if_neg hw, rfl⟩

/-- **The code of a cast** is none, or takes a word of the source's kind. -/
theorem Width.hasType_castTo {source target : Width} {code : Code} (hcast : source.castTo target = .ok code)
    (h : Code.HasType spaces locals labels code ks ks') :
    code = [] ∧ ks' = ks ∨ ∃ rest, ks = source.kind :: rest ∧ ks' = target.kind :: rest := by
  have hknown (rest : List Kind) : Code.HasType spaces locals labels code (source.kind :: rest)
      (target.kind :: rest) := .words rest (Width.onKinds_castTo hcast)
  have hstraight := Code.isStraight_of_onKinds (Width.onKinds_castTo hcast)
  suffices htakes : code = [] ∧ ks' = ks ∨ ∃ rest, ks = source.kind :: rest by
    rcases htakes with hnone | ⟨rest, rfl⟩
    · exact .inl hnone
    · exact .inr ⟨rest, rfl, h.unique hstraight (hknown rest)⟩
  have hnil (hcode : code = []) : code = [] ∧ ks' = ks := by
    subst hcode
    cases h
    exact ⟨rfl, rfl⟩
  have hconvert {c : Conversion} {is : Code} (hcode : code = .convert c :: is) (hc : c.source = source.kind) :
      ∃ rest, ks = source.kind :: rest := by
    subst hcode
    cases h with
    | cons hfirst _ =>
      obtain ⟨rest, rfl, -⟩ := hfirst.of_convert
      exact ⟨rest, by rw [hc]⟩
  obtain ⟨-, -, hcasts⟩ := casts_of_castTo hcast
  cases hcasts with
  | same => exact .inl (hnil rfl)
  | low hs => exact .inr (hconvert rfl hs.symm)
  | zeros hs => exact .inr (hconvert rfl hs.symm)
  | sign => exact .inr (hconvert rfl rfl)
  | wider => exact .inl (hnil rfl)
  | cut hs =>
    rw [hs]
    exact Width.hasType_mask h

/-- **The address of an element** is told from a base and an index. -/
theorem hasType_of_elementAddress {size : Nat} (h : Code.HasType spaces locals labels (elementAddress size) ks ks') :
    ∃ rest, ks = .i32 :: .i32 :: rest ∧ ks' = .i32 :: rest := by
  cases h with
  | cons hconst h =>
    obtain rfl := hconst.of_const
    cases h with
    | cons hmul h =>
      obtain ⟨rest, htakes, rfl⟩ := hmul.of_arith
      obtain ⟨rest', htakes', rfl⟩ := h.of_single.of_arith
      cases htakes'
      exact ⟨rest', (List.cons.inj htakes).2, rfl⟩

/-- **The unit value** is left above all else. -/
theorem Wasm.Instr.hasType_of_unit (h : Code.HasType spaces locals labels [.unit] ks ks') : ks' = .i32 :: ks :=
  h.of_single.of_const

end Pieces

/-! ## Expressions -/

/-- Code has left one word more than it found, or fewer; if one more, the word has a kind that is right. -/
def Recovers (right : Kind → Prop) (ks ks' : List Kind) : Prop :=
  ks'.length ≤ ks.length + 1 ∧ (ks'.length = ks.length + 1 → ∃ k, right k ∧ ks' = k :: ks)

/-- Code has left as many words as it found, or fewer; if as many, they are the same and something is right. -/
def Settles (right : Prop) (ks ks' : List Kind) : Prop :=
  ks'.length ≤ ks.length ∧ (ks'.length = ks.length → right ∧ ks' = ks)

section Counting

variable {right right' : Kind → Prop} {P Q : Prop} {ks mid rest ks' : List Kind} {j k : Kind}

/-- **A word that is left above all else** has a right kind. -/
theorem Recovers.of_eq (hk : right k) (h : ks' = k :: ks) : Recovers right ks ks' := by
  subst h
  exact ⟨Nat.le_refl _, fun _ => ⟨k, hk, rfl⟩⟩

/-- **A word on the empty stack** has a right kind, and is the only one. -/
theorem Recovers.of_nil (h : Recovers right [] (k :: rest)) : right k ∧ rest = [] := by
  have hlength : (k :: rest).length = 1 := Nat.le_antisymm h.1 (Nat.succ_pos _)
  obtain ⟨_, hk, heq⟩ := h.2 hlength
  cases heq
  exact ⟨hk, rfl⟩

/-- **A word that is taken again** had a right kind. -/
theorem Recovers.taken (h : Recovers right ks (k :: rest)) : Settles (right k) ks rest := by
  obtain ⟨hle, heq⟩ := h
  rw [List.length_cons] at hle heq
  refine ⟨Nat.le_of_succ_le_succ hle, fun hlength => ?_⟩
  obtain ⟨_, hk, heq⟩ := heq (congrArg (· + 1) hlength)
  cases heq
  exact ⟨hk, rfl⟩

/-- **Two words that are taken again** had right kinds. -/
theorem Recovers.bothTaken (h : Recovers right ks mid) (h' : Recovers right' mid (k :: j :: rest)) :
    Settles (right j ∧ right' k) ks rest := by
  obtain ⟨hle, heq⟩ := h
  obtain ⟨hle', heq'⟩ := h'.taken
  rw [List.length_cons] at hle' heq'
  refine ⟨by omega, fun hlength => ?_⟩
  obtain ⟨_, hj, rfl⟩ := heq (by omega)
  obtain ⟨hk, hmid⟩ := heq' (by rw [List.length_cons]; omega)
  cases hmid
  exact ⟨⟨hj, hk⟩, rfl⟩

/-- **A word is left** where all else is settled. -/
theorem Settles.leaves (h : Settles P ks rest) (hk : P → right k) : Recovers right ks (k :: rest) := by
  refine ⟨Nat.succ_le_succ h.1, fun hlength => ?_⟩
  obtain ⟨hP, rfl⟩ := h.2 (Nat.succ.inj hlength)
  exact ⟨k, hk hP, rfl⟩

/-- **What is settled above a word** leaves the word. -/
theorem Settles.keeps (h : Settles P (k :: ks) ks') (hk : P → right k) : Recovers right ks ks' := by
  refine ⟨h.1, fun hlength => ?_⟩
  obtain ⟨hP, rfl⟩ := h.2 hlength
  exact ⟨k, hk hP, rfl⟩

/-- **What is settled above a word** is settled if the word is taken. -/
theorem Settles.below (h : Settles P (j :: ks) (k :: rest)) : Settles P ks rest := by
  refine ⟨Nat.le_of_succ_le_succ h.1, fun hlength => ?_⟩
  obtain ⟨hP, heq⟩ := h.2 (congrArg (· + 1) hlength)
  cases heq
  exact ⟨hP, rfl⟩

/-- **One thing and then another is settled.** -/
theorem Settles.trans (h : Settles P ks mid) (h' : Settles Q mid rest) : Settles (P ∧ Q) ks rest := by
  refine ⟨Nat.le_trans h'.1 h.1, fun hlength => ?_⟩
  have hle := h.1
  have hle' := h'.1
  obtain ⟨hP, rfl⟩ := h.2 (by omega)
  obtain ⟨hQ, rfl⟩ := h'.2 hlength
  exact ⟨⟨hP, hQ⟩, rfl⟩

/-- **A word is left behind what is settled.** -/
theorem Settles.andThen (h : Settles P ks mid) (h' : Recovers right mid ks') (hk : ∀ k, P → right k → right' k) :
    Recovers right' ks ks' := by
  have hle := h.1
  have hle' := h'.1
  refine ⟨by omega, fun hlength => ?_⟩
  obtain ⟨hP, rfl⟩ := h.2 (by omega)
  obtain ⟨k, hright, rfl⟩ := h'.2 hlength
  exact ⟨k, hk k hP hright, rfl⟩

end Counting

section Expressions

variable {spaces : IndexSpaces} {scope : Scope} {frame : Frame} {vars locals : List Kind} {slots : Nat}

/-- **A call** settles its arguments, if they are no more than its parameters. -/
theorem HaveKinds.settles {es : List Expr} {params ks rest : List Kind} (hcount : es.length ≤ params.length)
    (hle : (params.reverse ++ rest).length ≤ ks.length + es.length)
    (heq : (params.reverse ++ rest).length = ks.length + es.length →
      ∃ kinds, HaveKinds spaces scope vars es kinds ∧ params.reverse ++ rest = kinds.reverse ++ ks) :
    Settles (HaveKinds spaces scope vars es params) ks rest := by
  rw [List.length_append, List.length_reverse] at hle heq
  refine ⟨by omega, fun hlength => ?_⟩
  obtain ⟨kinds, hkinds, happend⟩ := heq (by omega)
  have hsame : rest.length = ks.length := hlength
  obtain ⟨hparams, rfl⟩ := List.append_inj' happend hsame
  rw [List.reverse_inj.1 hparams]
  exact ⟨hkinds, rfl⟩

mutual

/-- **An expression whose code has a type leaves one word at most, and if it leaves one it has its kind.** -/
theorem Lowers.recovers (hfit : spaces.Fit scope) (hc : frame.Covers spaces scope vars slots locals)
    (hresults : ∀ t ∈ spaces.functions, t.results.length ≤ 1) :
    ∀ {st st' : LowerState} {e : Expr} {code : Code} {labels : List (List Kind)} {ks ks' : List Kind},
      Lowers scope frame st e code st' → e.isRegular spaces scope vars = true → st.depth ≤ st.slots →
      st'.slots ≤ slots → Code.HasType spaces locals labels code ks ks' →
      Recovers (HasKind spaces scope vars e) ks ks'
  | _, _, _, _, _, _, _, .var hj, _, _, _, h => by
    obtain ⟨k, hk, hlocal⟩ := hc.kind_var hj
    exact .of_eq (.var hk) (h.unique rfl (.single (.localGet hlocal)))
  | _, _, _, _, _, _, _, .global hi, _, _, _, h => by
    cases h.of_single with
    | words hp => cases hp
    | globalGet hk => exact .of_eq (.global (Scope.global_eq_ok.1 hi) hk) rfl
  | _, _, _, _, _, _, _, .literal hv, _, _, _, h => by
    have hkind := h.of_single.of_const
    rw [Literal.kind_of_parse hv] at hkind
    exact .of_eq .literal hkind
  | _, _, _, _, _, _, _, .string, _, _, _, h =>
    .of_eq .string (h.unique rfl (Segment.hasType_address hfit.dataStart _))
  | _, _, _, _, _, _, _, .binary hl hr ha, hreg, hd, hs, h => by
    rw [Expr.isRegular, Bool.and_eq_true] at hreg
    obtain ⟨_, hoperands, happly⟩ := h.of_append
    obtain ⟨_, hleft, hright⟩ := hoperands.of_append
    obtain ⟨_, rfl, rfl⟩ := Operator.hasType_lower ha happly
    have hleft := hl.recovers hfit hc hresults hreg.1 hd (Nat.le_trans hr.grows.slots hs) hleft
    have hright := hr.recovers hfit hc hresults hreg.2 (hl.depth_le_slots hd) hs hright
    exact (hleft.bothTaken hright).leaves fun ⟨hk, hk'⟩ => .binary hk hk'
  | _, _, _, _, _, _, _, .call hi hargs, hreg, hd, hs, h => by
    rw [Expr.isRegular, Bool.and_eq_true] at hreg
    have hi' := Scope.function_eq_ok.1 hi
    obtain ⟨mid, hoperands, hcall⟩ := h.of_append
    obtain ⟨hle, heq⟩ := hargs.recovers hfit hc hresults hreg.2 hd hs hoperands
    cases hcall with
    | cons hinstr hunit =>
      generalize hmid : mid = takes at hinstr
      cases hinstr with
      | @call _ _ t rest ht =>
        subst hmid
        have hcount := hreg.1
        rw [Scope.callee?_eq hi' ht, Option.any_some, decide_eq_true_iff] at hcount
        have hone := hresults t (List.mem_of_getElem? ht)
        have hsettles := HaveKinds.settles hcount hle heq
        rw [hfit.hasResult ht] at hunit
        cases hr : t.results with
        | nil =>
          rw [hr] at hunit
          obtain rfl := Instr.hasType_of_unit hunit
          exact hsettles.leaves fun hkinds => .callVoid hi' ht hkinds hr
        | cons k more =>
          rw [hr] at hunit hone
          obtain rfl : more = [] := List.length_eq_zero_iff.1 (Nat.le_zero.1 (Nat.le_of_succ_le_succ hone))
          cases hunit
          exact hsettles.leaves fun hkinds => .call hi' ht hkinds hr
  | _, _, _, _, _, _, _, .bufCreate hn, hreg, hd, hs, h => by
    obtain ⟨_, h, hgrow⟩ := h.of_append
    obtain ⟨number, h, hsize⟩ := h.of_append
    obtain ⟨_, hread, hcount⟩ := h.of_append
    obtain rfl := hread.unique rfl Highwater.hasType_read
    cases hsize with
    | cons hconst hmul =>
      obtain rfl := hconst.of_const
      obtain ⟨rest, htakes, rfl⟩ := hmul.of_single.of_arith
      obtain rfl : number = .i32 :: rest := (List.cons.inj htakes).2
      obtain rfl := hgrow.unique rfl (Highwater.hasType_grow hc.kinds)
      exact (hn.recovers hfit hc hresults hreg hd hs hcount).taken.keeps .bufCreate
  | _, _, _, _, _, _, _, .bufRead hb hi hload, hreg, hd, hs, h => by
    rw [Expr.isRegular, Bool.and_eq_true] at hreg
    obtain ⟨_, h, hlast⟩ := h.of_append
    obtain ⟨_, hoperands, helement⟩ := h.of_append
    obtain ⟨_, hbase, hindex⟩ := hoperands.of_append
    obtain ⟨op, arg, rfl, -, -, hkind, -⟩ := loadElement_eq_ok hload
    obtain ⟨_, rfl, rfl⟩ := hasType_of_elementAddress helement
    obtain ⟨_, haddress, rfl⟩ := hlast.of_single.of_load
    cases haddress
    have hbase := hb.recovers hfit hc hresults hreg.1 hd (Nat.le_trans hi.grows.slots hs) hbase
    have hindex := hi.recovers hfit hc hresults hreg.2 (hb.depth_le_slots hd) hs hindex
    rw [hkind]
    exact (hbase.bothTaken hindex).leaves fun ⟨hk, hk'⟩ => .bufRead hk hk'
  | _, _, _, _, _, _, _, .bufWrite hb hi hv hstore, hreg, hd, hs, h => by
    rw [Expr.isRegular, Bool.and_eq_true, Bool.and_eq_true] at hreg
    obtain ⟨⟨hregb, hregi⟩, hregv⟩ := hreg
    have hs' := Nat.le_trans hv.grows.slots hs
    have hd' := hb.depth_le_slots hd
    obtain ⟨_, h, hlast⟩ := h.of_append
    obtain ⟨_, h, hvalue⟩ := h.of_append
    obtain ⟨_, hoperands, helement⟩ := h.of_append
    obtain ⟨_, hbase, hindex⟩ := hoperands.of_append
    obtain ⟨op, arg, rfl, -, -, hkind, -⟩ := storeElement_eq_ok hstore
    obtain ⟨_, rfl, rfl⟩ := hasType_of_elementAddress helement
    cases hlast with
    | cons hlast hunit =>
      obtain rfl := hlast.of_store
      obtain rfl := Instr.hasType_of_unit hunit
      have hbase := hb.recovers hfit hc hresults hregb hd (Nat.le_trans hi.grows.slots hs') hbase
      have hindex := hi.recovers hfit hc hresults hregi hd' hs' hindex
      have hvalue := hv.recovers hfit hc hresults hregv (hi.depth_le_slots hd') hs hvalue
      rw [hkind] at hvalue
      exact ((hbase.bothTaken hindex).trans hvalue.taken.below).leaves
        fun ⟨⟨hk, hk'⟩, hk''⟩ => .bufWrite hk hk' hk''
  | _, _, _, _, _, _, _, .bufSub hb hi, hreg, hd, hs, h => by
    rw [Expr.isRegular, Bool.and_eq_true] at hreg
    obtain ⟨_, hoperands, helement⟩ := h.of_append
    obtain ⟨_, hbase, hindex⟩ := hoperands.of_append
    obtain ⟨_, rfl, rfl⟩ := hasType_of_elementAddress helement
    have hbase := hb.recovers hfit hc hresults hreg.1 hd (Nat.le_trans hi.grows.slots hs) hbase
    have hindex := hi.recovers hfit hc hresults hreg.2 (hb.depth_le_slots hd) hs hindex
    exact (hbase.bothTaken hindex).leaves fun ⟨hk, hk'⟩ => .bufSub hk hk'
  | _, _, .cast operand source target, _, _, _, _, .cast he hcast, hreg, hd, hs, h => by
    rw [Expr.isRegular, Bool.and_eq_true] at hreg
    obtain ⟨_, hoperand, hconvert⟩ := h.of_append
    have hoperand := he.recovers hfit hc hresults hreg.2 hd hs hoperand
    rcases Width.hasType_castTo hcast hconvert with ⟨rfl, rfl⟩ | ⟨_, rfl, rfl⟩
    · -- The operand's word is the word of the cast.
      refine ⟨hoperand.1, fun hlength => ?_⟩
      obtain ⟨k, hk, rfl⟩ := hoperand.2 hlength
      have hsilent : source.isSilentCast target = true := by rw [Width.isSilentCast, hcast]
      have hsource : operand.kind? spaces scope vars = some source.kind := by simpa [hsilent] using hreg.1
      obtain rfl : k = source.kind := Option.some.inj (hk.kind?_eq.symm.trans hsource)
      obtain ⟨heq, -⟩ := List.cons.inj (Option.some.inj (Width.onKinds_castTo hcast))
      exact ⟨target.kind, .cast hk, by rw [heq]⟩
    · exact hoperand.taken.leaves .cast
  | _, _, _, _, _, _, _, .ifThenElse ht hf _ hg _, hreg, hd, hs, h => by
    rw [Expr.isRegular, Bool.and_eq_true, Bool.and_eq_true] at hreg
    obtain ⟨⟨hregt, hregf⟩, hregg⟩ := hreg
    have hs' := Nat.le_trans hg.grows.slots hs
    have hd' := ht.depth_le_slots hd
    obtain ⟨_, htest, hcond⟩ := h.of_append
    have htest := ht.recovers hfit hc hresults hregt hd (Nat.le_trans hf.grows.slots hs') htest
    cases hcond.of_single with
    | cond hfirst hsecond =>
      have hfirst := (hf.recovers hfit hc hresults hregf hd' hs' hfirst).of_nil
      have hsecond := (hg.recovers hfit hc hresults hregg (hf.depth_le_slots hd') hs hsecond).of_nil
      exact htest.taken.leaves fun hk => .ifThenElse hk hfirst.1 hsecond.1
  | _, _, _, _, _, _, _, .assign hv hj, hreg, hd, hs, h => by
    obtain ⟨_, hvalue, hset⟩ := h.of_append
    cases hset with
    | cons hset hunit =>
      obtain ⟨k, hlocal, rfl⟩ := hset.of_localSet
      obtain rfl := Instr.hasType_of_unit hunit
      obtain ⟨k', hk', hlocal'⟩ := hc.kind_var hj
      obtain rfl : k = k' := Option.some.inj (hlocal.symm.trans hlocal')
      exact (hv.recovers hfit hc hresults hreg hd hs hvalue).taken.leaves (.assign hk')
  | _, _, _, _, _, _, _, .whileLoop ht hb _, hreg, hd, hs, h => by
    rw [Expr.isRegular, Bool.and_eq_true] at hreg
    cases h with
    | cons hloop hunit =>
      obtain rfl := Instr.hasType_of_unit hunit
      cases hloop with
      | loop hbody =>
        obtain ⟨_, htest, hcond⟩ := hbody.of_append
        generalize hnil : ([] : List Kind) = leaves at hcond
        cases hcond.of_single with
        | cond hstep _ =>
          have htest := ht.recovers hfit hc hresults hreg.1 hd (Nat.le_trans hb.grows.slots hs) htest
          obtain ⟨_, hstep, hback⟩ := hstep.of_append
          cases hback with
          | cons hdrop _ =>
            obtain ⟨k, rfl⟩ := hdrop.of_drop
            have hstep := hb.recovers hfit hc hresults hreg.2 (ht.depth_le_slots hd) hs hstep
            exact .of_eq (.whileLoop htest.of_nil.1 hstep.of_nil.1) rfl
  | _, _, _, _, _, _, _, .ignore he, hreg, hd, hs, h => by
    obtain ⟨_, hoperand, hdrop⟩ := h.of_append
    cases hdrop with
    | cons hdrop hunit =>
      obtain ⟨k, rfl⟩ := hdrop.of_drop
      obtain rfl := Instr.hasType_of_unit hunit
      exact (he.recovers hfit hc hresults hreg hd hs hoperand).taken.leaves .ignore
  | _, _, _, _, _, _, _, .empty, _, _, _, h => .of_eq .empty (Instr.hasType_of_unit h)
  | _, _, _, _, _, _, _, .last he, hreg, hd, hs, h => by
    rw [Expr.isRegular, Expr.areRegular, Bool.and_eq_true] at hreg
    have hlast := he.recovers hfit hc hresults hreg.1 hd hs h
    refine ⟨hlast.1, fun hlength => ?_⟩
    obtain ⟨k, hk, heq⟩ := hlast.2 hlength
    exact ⟨k, .last hk, heq⟩
  | _, _, .sequence (_ :: next :: es), _, _, _, _, .sequence he hes, hreg, hd, hs, h => by
    rw [Expr.isRegular, Expr.areRegular, Bool.and_eq_true] at hreg
    obtain ⟨_, hfirst, hrest⟩ := h.of_append
    have hfirst := he.recovers hfit hc hresults hreg.1 hd (Nat.le_trans hes.grows.slots hs) hfirst
    cases hrest with
    | cons hdrop hrest =>
      obtain ⟨j, rfl⟩ := hdrop.of_drop
      have hregs : (Expr.sequence (next :: es)).isRegular spaces scope vars = true := by
        rw [Expr.isRegular]
        exact hreg.2
      have hrest := hes.recovers hfit hc hresults hregs (he.depth_le_slots hd) hs hrest
      exact hfirst.taken.andThen hrest fun k hj hk => .sequence hj hk
  | st, _, _, _, labels, ks, _, .pushFrame, _, _, hs, h => by
    have hslot := hc.kinds.slot (Nat.lt_of_lt_of_le (Nat.lt_succ_self st.depth)
      (Nat.le_trans (Nat.le_max_right ..) hs))
    have hknown : Code.HasType spaces locals labels
        (Highwater.read ++ [.localSet (frame.slot st.depth), .unit]) ks (.i32 :: ks) :=
      Highwater.hasType_read.append (.cons (.localSet hslot) Instr.hasType_unit)
    exact .of_eq .pushFrame (h.unique rfl hknown)
  | _, _, _, _, labels, ks, _, .popFrame (d := d) hdepth, _, hd, hs, h => by
    rw [hdepth] at hd
    have hknown : Code.HasType spaces locals labels
        (.localGet (frame.slot d) :: Highwater.write frame.registers ++ [.unit]) ks (.i32 :: ks) :=
      .cons (.localGet (hc.kinds.slot (Nat.le_trans hd hs)))
        ((Highwater.hasType_write hc.kinds).append Instr.hasType_unit)
    exact .of_eq .popFrame (h.unique rfl hknown)

/-- **Arguments whose code has a type leave one word each at most, and if they do have their kinds.** -/
theorem LowersArgs.recovers (hfit : spaces.Fit scope) (hc : frame.Covers spaces scope vars slots locals)
    (hresults : ∀ t ∈ spaces.functions, t.results.length ≤ 1) :
    ∀ {st st' : LowerState} {es : List Expr} {code : Code} {labels : List (List Kind)} {ks ks' : List Kind},
      LowersArgs scope frame st es code st' → Expr.areRegular spaces scope vars es = true → st.depth ≤ st.slots →
      st'.slots ≤ slots → Code.HasType spaces locals labels code ks ks' →
      ks'.length ≤ ks.length + es.length ∧ (ks'.length = ks.length + es.length →
        ∃ kinds, HaveKinds spaces scope vars es kinds ∧ ks' = kinds.reverse ++ ks)
  | _, _, _, _, _, ks, ks', .nil, _, _, _, h => by
    cases h
    exact ⟨Nat.le_refl _, fun _ => ⟨[], .nil, rfl⟩⟩
  | _, _, _, _, _, ks, ks', .cons he hes, hreg, hd, hs, h => by
    rw [Expr.areRegular, Bool.and_eq_true] at hreg
    obtain ⟨mid, hfirst, hrest⟩ := h.of_append
    obtain ⟨hle, heq⟩ := he.recovers hfit hc hresults hreg.1 hd (Nat.le_trans hes.grows.slots hs) hfirst
    obtain ⟨hle', heq'⟩ := hes.recovers hfit hc hresults hreg.2 (he.depth_le_slots hd) hs hrest
    rw [List.length_cons]
    refine ⟨by omega, fun hlength => ?_⟩
    obtain ⟨k, hk, rfl⟩ := heq (by omega)
    obtain ⟨kinds, hkinds, rfl⟩ := heq' (by rw [List.length_cons]; omega)
    exact ⟨k :: kinds, .cons hk hkinds, by rw [List.reverse_cons, List.append_assoc]; rfl⟩

end

end Expressions

/-! ## Functions -/

/-- **The record of return keeps the stack.** -/
theorem Function.exit_keeps {spaces : IndexSpaces} {locals : List Kind} {f : Function} {traced : Bool}
    {seg seg' : Segment} {code : Code} (hstart : spaces.globals[Layout.dataStartGlobal]? = some .i32)
    (hhook : spaces.functions[Layout.traceHook]? = some ⟨[], []⟩)
    (hr : ∀ k, locals[f.frame.registers.forKind k]? = some k)
    (h : (if traced then Trace.exit f.resultKind f.frame.registers else pure []) seg = .ok code seg')
    {labels : List (List Kind)} {ks ks' : List Kind} (htype : Code.HasType spaces locals labels code ks ks') :
    ks' = ks := by
  cases traced with
  | false =>
    obtain ⟨rfl, -⟩ := pure_eq_ok.1 h
    cases htype
    rfl
  | true =>
    obtain ⟨record, rfl, hstraight, hrecord⟩ := Trace.exit_straight hstart hhook hr h
    obtain ⟨mid, htee, htype⟩ := htype.of_append
    obtain rfl := htype.unique hstraight (hrecord ..)
    cases hk : f.resultKind with
    | none =>
      rw [hk] at htee
      cases htee
      rfl
    | some k =>
      rw [hk] at htee
      cases htee.of_single with
      | words hp => cases hp
      | localTee _ => rfl

/-- **A function whose code has its type is well kinded exactly if its body is regular.** -/
theorem Function.wellKinded_iff_isRegular {spaces : IndexSpaces} {scope : Scope} {f : Function} {traced : Bool}
    {seg seg' : Segment} {body : FuncBody} {labels : List (List Kind)} (hfit : spaces.Fit scope)
    (hfunctions : scope.functions.length ≤ spaces.functions.length)
    (hglobals : scope.globals.length ≤ spaces.globals.length)
    (hhook : spaces.functions[Layout.traceHook]? = some ⟨[], []⟩)
    (hresults : ∀ t ∈ spaces.functions, t.results.length ≤ 1) (hlower : f.lower scope traced seg = .ok body seg')
    (h : Code.HasType spaces (f.type.params ++ body.locals) labels body.code [] f.type.results.reverse) :
    f.WellKinded spaces scope ↔
      f.body.isRegular spaces scope ((f.args ++ f.locals).map Width.kind) = true := by
  refine ⟨fun ⟨_, hk, _⟩ => hk.isRegular, fun hreg => ?_⟩
  obtain ⟨hone, entry, mid, code, st, exit, hentry, hexpr, -, hexit, rfl⟩ := lower_eq_ok hlower
  have hc := covers (f := f) hfit hfunctions hglobals st.slots
  obtain ⟨_, h, hlast⟩ := h.of_append
  obtain ⟨_, h, hreturn⟩ := h.of_append
  obtain ⟨_, hrecord, hcode⟩ := h.of_append
  obtain ⟨hstraight, hknown⟩ := entry_straight hfit.dataStart hhook hentry labels []
  obtain rfl := hrecord.unique hstraight hknown
  obtain rfl := exit_keeps hfit.dataStart hhook hc.kinds.register hexit hreturn
  have hbody := (Lowers.of_lower hexpr).recovers hfit hc hresults hreg (Nat.le_refl 0) (Nat.le_refl _) hcode
  -- The word of the body is dropped, or is the result.
  cases hr : f.results with
  | nil =>
    have hnone : f.resultKind = none := by rw [resultKind, hr]; rfl
    rw [hnone] at hlast
    obtain ⟨k, rfl⟩ := hlast.of_single.of_drop
    exact ⟨k, hbody.of_nil.1, by rw [hnone]; exact nofun⟩
  | cons w more =>
    rw [hr] at hone
    obtain rfl : more = [] := List.length_eq_zero_iff.1 (Nat.le_zero.1 (Nat.le_of_succ_le_succ hone))
    have hsome : f.resultKind = some w.kind := by rw [resultKind, hr]; rfl
    have htype : f.type.results.reverse = [w.kind] := by rw [type, hr]; rfl
    rw [hsome, htype] at hlast
    cases hlast
    refine ⟨w.kind, hbody.of_nil.1, ?_⟩
    rw [hsome]
    rintro _ ⟨⟩
    rfl

end WasmLowering
