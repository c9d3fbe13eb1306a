/-
# Checked code has a type

The converse of `WasmLowering.Proofs.Checking`: code whose operations pass the
check has a type by the rules of structured code.

A block in which every word is known and that is run on `Stands` at the kinds of
its words.  As long as code does not branch, each instruction takes a block that
stands at some kinds to one that stands at others, and the rules give it just that
type.  Behind a branch a block holds anything, so the rules are asked for code
that is `isOrderly`:

| code                  | `br`                                               |
|-----------------------|----------------------------------------------------|
| of a body, of a loop  | none                                               |
| of an arm             | at the very end only, so that nothing stands behind |

and whose indices are in range.  What lowering emits is orderly.
-/

import WasmLowering.Proofs.Decoding

namespace WasmLowering
namespace Wasm

/-! ## Orderly code -/

/-- Whether what a plain instruction names is there. -/
def Plain.isInRange (spaces : IndexSpaces) (locals : List Kind) : Plain → Bool
  | localGet i | localSet i | localTee i => i < locals.length
  | globalGet i => i < spaces.globals.length
  | load op arg => arg.align ≤ op.naturalAlign && arg.offset < MemArg.offsetBound
  | store op arg => arg.align ≤ op.naturalAlign && arg.offset < MemArg.offsetBound
  | const _ | arith .. | compare .. | convert _ | drop => true

mutual

/-- Whether what an instruction names is there and it is no branch, those aside that end an arm. -/
def Instr.isOrderly (spaces : IndexSpaces) (locals : List Kind) : Instr → Bool
  | .plain p => p.isInRange spaces locals
  | .call i => i < spaces.functions.length
  | .br _ => false
  | .cond _ first second => Code.isArm spaces locals first && Code.isArm spaces locals second
  | .loop body => Code.isOrderly spaces locals body

/-- Whether what code names is there and it does not branch. -/
def Code.isOrderly (spaces : IndexSpaces) (locals : List Kind) : Code → Bool
  | [] => true
  | i :: is => i.isOrderly spaces locals && Code.isOrderly spaces locals is

/-- Whether what code names is there and it branches at its end only, if it does. -/
def Code.isArm (spaces : IndexSpaces) (locals : List Kind) : Code → Bool
  | [] => true
  | [.br d] => d < operandBound
  | i :: is => i.isOrderly spaces locals && Code.isArm spaces locals is

end

section Orderly

variable {spaces : IndexSpaces} {locals : List Kind}

/-- **An arm goes on behind a first instruction** that is orderly. -/
theorem Code.isArm_cons {i : Instr} {is : Code} (hi : i.isOrderly spaces locals = true)
    (his : Code.isArm spaces locals is = true) : Code.isArm spaces locals (i :: is) = true := by
  unfold Code.isArm
  split
  · rfl
  · rename_i h
    cases h
    cases hi
  · rename_i h
    cases h
    rw [hi, his]
    rfl

/-- **Orderly code is an arm.** -/
theorem Code.isArm_of_isOrderly {code : Code} (h : code.isOrderly spaces locals = true) :
    code.isArm spaces locals = true := by
  induction code with
  | nil => rfl
  | cons i is ih =>
    rw [Code.isOrderly, Bool.and_eq_true] at h
    exact Code.isArm_cons h.1 (ih h.2)

theorem Code.isOrderly_append {a b : Code} (ha : a.isOrderly spaces locals = true)
    (hb : b.isOrderly spaces locals = true) : Code.isOrderly spaces locals (a ++ b) = true := by
  induction a with
  | nil => exact hb
  | cons i is ih =>
    rw [Code.isOrderly, Bool.and_eq_true] at ha
    rw [List.cons_append, Code.isOrderly, Bool.and_eq_true]
    exact ⟨ha.1, ih ha.2⟩

theorem Code.isArm_append {a b : Code} (ha : a.isOrderly spaces locals = true)
    (hb : b.isArm spaces locals = true) : Code.isArm spaces locals (a ++ b) = true := by
  induction a with
  | nil => exact hb
  | cons i is ih =>
    rw [Code.isOrderly, Bool.and_eq_true] at ha
    exact Code.isArm_cons ha.1 (ih ha.2)

/-- **An arm is orderly code, or orderly code and a branch.** -/
theorem Code.isArm_cases {i : Instr} {is : Code} (h : Code.isArm spaces locals (i :: is) = true) :
    (∃ d, i = .br d ∧ is = [] ∧ d < operandBound) ∨
      i.isOrderly spaces locals = true ∧ Code.isArm spaces locals is = true := by
  unfold Code.isArm at h
  split at h
  · rename_i heq
    cases heq
  · rename_i d heq
    cases heq
    exact .inl ⟨d, rfl, rfl, of_decide_eq_true h⟩
  · rename_i heq
    cases heq
    exact .inr (Bool.and_eq_true_iff.1 h)

/-- There is room for the operands of all that can be named. -/
structure RangesFit (spaces : IndexSpaces) (locals : List Kind) : Prop where
  functions : spaces.functions.length ≤ operandBound
  globals : spaces.globals.length ≤ operandBound
  locals : locals.length ≤ operandBound

theorem Plain.fits_of_isInRange (hr : RangesFit spaces locals) {p : Plain}
    (h : p.isInRange spaces locals = true) : p.Fits := by
  cases p with
  | localGet i | localSet i | localTee i => exact Nat.lt_of_lt_of_le (of_decide_eq_true h) hr.locals
  | globalGet i => exact Nat.lt_of_lt_of_le (of_decide_eq_true h) hr.globals
  | load op arg | store op arg =>
    rw [Plain.isInRange, Bool.and_eq_true] at h
    exact ⟨of_decide_eq_true h.1, of_decide_eq_true h.2⟩
  | const _ | arith _ _ | compare _ _ | convert _ | drop => trivial

mutual

/-- **The operands of an orderly instruction fit.** -/
theorem Instr.fits_of_isOrderly (hr : RangesFit spaces locals) : ∀ {i : Instr},
    i.isOrderly spaces locals = true → ∀ op ∈ i.flatten, op.Fits
  | .plain _, h => List.forall_mem_singleton.2 (Plain.fits_of_isInRange hr h)
  | .call _, h => List.forall_mem_singleton.2 (Nat.lt_of_lt_of_le (of_decide_eq_true h) hr.functions)
  | .br _, h => nomatch h
  | .cond _ first [], h => by
    rw [Instr.isOrderly, Bool.and_eq_true] at h
    rw [Instr.flatten]
    exact Opcode.fits_block trivial (Code.fits_of_isArm hr h.1)
  | .cond _ first (i :: second), h => by
    rw [Instr.isOrderly, Bool.and_eq_true] at h
    have hsecond : ∀ op ∈ Code.flatten (i :: second), op.Fits := Code.fits_of_isArm hr h.2
    rw [Instr.flatten, List.append_assoc]
    exact List.forall_mem_append.2 ⟨List.forall_mem_cons.2 ⟨trivial, Code.fits_of_isArm hr h.1⟩,
      Opcode.fits_block trivial hsecond⟩
  | .loop body, h => by
    rw [Instr.flatten]
    exact Opcode.fits_block trivial (Code.fits_of_isArm hr (Code.isArm_of_isOrderly h))

/-- **The operands of an arm fit.** -/
theorem Code.fits_of_isArm (hr : RangesFit spaces locals) : ∀ {code : Code},
    code.isArm spaces locals = true → ∀ op ∈ code.flatten, op.Fits
  | [], _ => nofun
  | i :: is, h => by
    rw [Code.flatten]
    rcases Code.isArm_cases h with ⟨d, rfl, rfl, hd⟩ | ⟨hi, his⟩
    · exact List.forall_mem_singleton.2 hd
    · exact List.forall_mem_append.2 ⟨Instr.fits_of_isOrderly hr hi, Code.fits_of_isArm hr his⟩

end

end Orderly

/-! ## Blocks that are run on -/

theorem TypeSpace.eq_of_valLe (space : TypeSpace) {j k : Kind}
    (h : space.valLe (.ofKind j) (.ofKind k) = true) : j = k := by
  cases j <;> cases k <;> first | rfl | cases h

namespace Block

/-- A block is run on, and its words are known: they are of some kinds, topmost first. -/
structure Stands (b : Block) (ks : List Kind) : Prop where
  operands : b.operands = (valTypes ks).map .known
  alive : b.isDead = false

variable {b b' : Block} {ks : List Kind}

theorem stands_opened (form : BlockForm) (results : List ValType) (ready : List Nat) :
    (opened form ⟨[], results⟩ ready).Stands [] := ⟨rfl, rfl⟩

namespace Stands

/-- **A word that was taken was there,** and was of the type that was asked for. -/
theorem of_pop (h : b.Stands ks) {space : TypeSpace} {expected : Option ValType} {w : Operand}
    (hpop : b.pop space expected = .ok (w, b')) :
    ∃ k ks', ks = k :: ks' ∧ (∀ j : Kind, expected = some (.ofKind j) → j = k) ∧ b'.Stands ks' ∧
      b'.SameAs b := by
  rw [pop, h.operands] at hpop
  cases ks with
  | nil =>
    simp only [List.map_nil, h.alive] at hpop
    cases hpop
  | cons k ks =>
    simp only [List.map_cons] at hpop
    cases expected with
    | none =>
      cases hpop
      refine ⟨k, ks, rfl, ?_, ⟨rfl, h.alive⟩, ⟨rfl, rfl⟩⟩
      rintro j ⟨⟩
    | some t =>
      simp only at hpop
      split at hpop
      · rename_i hle
        cases hpop
        refine ⟨k, ks, rfl, ?_, ⟨rfl, h.alive⟩, ⟨rfl, rfl⟩⟩
        rintro j ⟨⟩
        exact (space.eq_of_valLe hle).symm
      · cases hpop

/-- **Words that were taken were there,** and were of the kinds that were asked for. -/
theorem of_popAll {space : TypeSpace} {takes : List Kind} (h : b.Stands ks)
    (hpop : b.popAll space (valTypes takes) = .ok b') :
    ∃ ks', ks = takes ++ ks' ∧ b'.Stands ks' ∧ b'.SameAs b := by
  induction takes generalizing b ks with
  | nil =>
    cases hpop
    exact ⟨ks, rfl, h, .refl b'⟩
  | cons j takes ih =>
    obtain ⟨⟨w, b₁⟩, hfirst, hrest⟩ := ok_of_bind hpop
    obtain ⟨k, ks₁, rfl, hk, h₁, hsame₁⟩ := h.of_pop hfirst
    obtain ⟨ks', rfl, h', hsame'⟩ := ih h₁ hrest
    obtain rfl := hk j rfl
    exact ⟨ks', rfl, h', hsame'.trans hsame₁⟩

theorem pushAll (h : b.Stands ks) (leaves : List Kind) :
    (b.pushAll (valTypes leaves)).Stands (leaves.reverse ++ ks) where
  operands := by
    show ((valTypes leaves).map Operand.known).reverse ++ b.operands = _
    simp only [h.operands, valTypes, List.map_append, List.map_reverse]
  alive := h.alive

/-- **A block that is closed has its results in it.** -/
theorem of_close (h : b.Stands ks) {space : TypeSpace} {results : List Kind}
    (hs : b.signature.results = valTypes results) (hclose : b.close space = .ok ()) : ks = results.reverse := by
  obtain ⟨b', hpop, hempty⟩ := ok_of_bind hclose
  rw [hs, ← List.map_reverse] at hpop
  obtain ⟨ks', rfl, h', -⟩ := h.of_popAll hpop
  cases ks' with
  | nil => exact List.append_nil _
  | cons k ks' =>
    rw [h'.operands] at hempty
    cases hempty

end Stands

end Block

/-! ## What checks that passed have found -/

namespace Check

variable {α β : Type} {ctx : CodeContext} {b : Block} {bs bs' : Blocks}

theorem ok_of_bind {x : Check α} {f : α → Check β} {r : β × Blocks} (h : (x >>= f) ctx bs = .ok r) :
    ∃ a mid, x ctx bs = .ok (a, mid) ∧ f a ctx mid = .ok r := by
  have h : (x ctx bs >>= fun p => f p.1 ctx p.2) = .ok r := h
  obtain ⟨⟨a, mid⟩, hx, hf⟩ := WasmLowering.ok_of_bind h
  exact ⟨a, mid, hx, hf⟩

theorem ok_of_ask {question : CodeContext → Except Violation α} {a : α}
    (h : ask question ctx bs = .ok (a, bs')) : question ctx = .ok a ∧ bs' = bs := by
  have h : ((liftM (question ctx) : Check α) ctx bs) = .ok (a, bs') := h
  cases hq : question ctx with
  | error e =>
    rw [hq] at h
    cases h
  | ok a' =>
    rw [hq] at h
    cases h
    exact ⟨rfl, rfl⟩

theorem ok_of_popAny {expected : Option ValType} {w : Operand}
    (h : popAny expected ctx (b :: bs) = .ok (w, bs')) :
    ∃ b', b.pop ctx.types expected = .ok (w, b') ∧ bs' = b' :: bs := by
  have h : ((liftM (b.pop ctx.types expected) >>= fun p => replace p.2 >>= fun _ => pure p.1 :
    Check Operand) ctx (b :: bs)) = .ok (w, bs') := h
  cases hpop : b.pop ctx.types expected with
  | error e =>
    rw [hpop] at h
    cases h
  | ok p =>
    rw [hpop] at h
    cases h
    exact ⟨p.2, rfl, rfl⟩

theorem ok_of_pop {expected : ValType} {u : Unit} (h : pop expected ctx (b :: bs) = .ok (u, bs')) :
    ∃ w b', b.pop ctx.types (some expected) = .ok (w, b') ∧ bs' = b' :: bs := by
  obtain ⟨w, mid, hany, hrest⟩ := ok_of_bind h
  cases hrest
  obtain ⟨b', hpop, rfl⟩ := ok_of_popAny hany
  exact ⟨w, b', hpop, rfl⟩

theorem ok_of_popAll {expected : List ValType} {u : Unit}
    (h : popAll expected ctx (b :: bs) = .ok (u, bs')) :
    ∃ b', b.popAll ctx.types expected = .ok b' ∧ bs' = b' :: bs := by
  have h : ((liftM (b.popAll ctx.types expected) >>= fun b => replace b : Check Unit) ctx (b :: bs)) =
    .ok (u, bs') := h
  cases hpop : b.popAll ctx.types expected with
  | error e =>
    rw [hpop] at h
    cases h
  | ok b' =>
    rw [hpop] at h
    cases h
    exact ⟨b', rfl, rfl⟩

theorem ok_of_require {condition : Bool} {cause : Violation} {u : Unit}
    (h : Typing.require condition cause ctx bs = .ok (u, bs')) : bs' = bs := by
  cases condition <;> cases h
  rfl

theorem ok_of_labelTypes {d : Nat} {ts : List ValType} (h : labelTypes d ctx bs = .ok (ts, bs')) :
    (bs.map Block.labelTypes)[d]? = some ts ∧ bs' = bs := by
  obtain ⟨bs₁, mid, hget, h⟩ := ok_of_bind h
  cases hget
  rw [List.getElem?_map]
  cases hb : bs[d]? with
  | none =>
    simp only [hb] at h
    cases h
  | some b =>
    simp only [hb] at h
    cases h
    exact ⟨rfl, rfl⟩

theorem ok_of_leave {b' : Block} (h : leave ctx (b :: bs) = .ok (b', bs')) :
    b.close ctx.types = .ok () ∧ b' = b ∧ bs' = bs := by
  have h : ((liftM (b.close ctx.types) >>= fun _ => modify List.tail >>= fun _ => pure b : Check Block)
    ctx (b :: bs)) = .ok (b', bs') := h
  cases hclose : b.close ctx.types with
  | error e =>
    rw [hclose] at h
    cases h
  | ok u =>
    rw [hclose] at h
    cases h
    exact ⟨rfl, rfl, rfl⟩

end Check

namespace Typing

variable {ctx : CodeContext} {blocks blocks' : Blocks}

theorem ok_of_step {op : Operation} (h : step ctx op blocks = .ok blocks') :
    ∃ u, rule op ctx blocks = .ok (u, blocks') := by
  have h : (rule op ctx blocks >>= fun p => pure p.2) = .ok blocks' := h
  obtain ⟨⟨u, mid⟩, hrule, hpure⟩ := ok_of_bind h
  cases hpure
  exact ⟨u, hrule⟩

theorem ok_of_steps_singleton {op : Operation} (h : steps ctx [op] blocks = .ok blocks') :
    ∃ u, rule op ctx blocks = .ok (u, blocks') := by
  obtain ⟨mid, hstep, hnil⟩ := ok_of_bind h
  cases hnil
  exact ok_of_step hstep

/-- **Operations that passed have passed piece by piece.** -/
theorem ok_of_steps_append {as bs : List Operation} (h : steps ctx (as ++ bs) blocks = .ok blocks') :
    ∃ mid, steps ctx as blocks = .ok mid ∧ steps ctx bs mid = .ok blocks' := by
  induction as generalizing blocks with
  | nil => exact ⟨blocks, rfl, h⟩
  | cons a as ih =>
    obtain ⟨first, hfirst, hrest⟩ := ok_of_bind h
    obtain ⟨mid, has, hbs⟩ := ih hrest
    refine ⟨mid, ?_, hbs⟩
    rw [steps_cons hfirst]
    exact has

end Typing

/-! ## Instructions -/

/-- The innermost block has come to stand at some kinds, and the blocks around it are as they were. -/
def Comes (b : Block) (bs blocks' : Blocks) (ks' : List Kind) : Prop :=
  ∃ b', blocks' = b' :: bs ∧ b'.Stands ks' ∧ b'.SameAs b

section Rules

variable {ctx : CodeContext} {spaces : IndexSpaces} {locals : List Kind} {labels : List (List Kind)}
  {b : Block} {bs blocks' : Blocks} {ks : List Kind} {u : Unit}

theorem Block.Stands.comes_pushAll {b' : Block} {ks' : List Kind} (h : b'.Stands ks') (hsame : b'.SameAs b)
    (leaves : List Kind) :
    Comes b bs (b'.pushAll (valTypes leaves) :: bs) (leaves.reverse ++ ks') :=
  ⟨_, rfl, h.pushAll leaves, ⟨hsame.form, hsame.signature⟩⟩

/-- **A computation that passed** has taken words of its kinds. -/
theorem Comes.of_compute (takes leaves : List Kind) {isConst : Bool} (hb : b.Stands ks)
    (h : Typing.rule (.compute ⟨valTypes takes, valTypes leaves⟩ isConst) ctx (b :: bs) = .ok (u, blocks')) :
    ∃ ks', ks = takes ++ ks' ∧ Comes b bs blocks' (leaves.reverse ++ ks') := by
  obtain ⟨_, mid, hpop, hpush⟩ := Check.ok_of_bind h
  obtain ⟨b', hall, rfl⟩ := Check.ok_of_popAll hpop
  obtain ⟨ks', rfl, hb', hsame⟩ := hb.of_popAll hall
  cases hpush
  exact ⟨ks', rfl, hb'.comes_pushAll hsame leaves⟩

/-- **A word that was asked for** was there. -/
theorem Comes.of_pop (hb : b.Stands ks) {k : Kind} (h : Check.pop (.ofKind k) ctx (b :: bs) = .ok (u, blocks')) :
    ∃ ks', ks = k :: ks' ∧ Comes b bs blocks' ks' := by
  obtain ⟨w, b', hpop, rfl⟩ := Check.ok_of_pop h
  obtain ⟨j, ks', rfl, hj, hb', hsame⟩ := hb.of_pop hpop
  obtain rfl := hj k rfl
  exact ⟨ks', rfl, b', rfl, hb', hsame⟩

/-- **An access that passed** has taken the words above the address, and the address. -/
theorem Comes.of_access (hctx : ctx.Declares spaces locals) (takes leaves : List Kind)
    {align natural offset : Nat} (hb : b.Stands ks)
    (h : Typing.rule (.access ⟨0, align, natural, false, offset, ⟨valTypes takes, valTypes leaves⟩⟩ none) ctx
      (b :: bs) = .ok (u, blocks')) :
    ∃ ks', ks = takes ++ .i32 :: ks' ∧ Comes b bs blocks' (leaves.reverse ++ ks') := by
  obtain ⟨_, _, hrequire, h⟩ := Check.ok_of_bind h
  obtain rfl := Check.ok_of_require hrequire
  obtain ⟨address, _, hask, h⟩ := Check.ok_of_bind h
  obtain ⟨haddress, rfl⟩ := Check.ok_of_ask hask
  obtain ⟨_, _, hrequire, h⟩ := Check.ok_of_bind h
  obtain rfl := Check.ok_of_require hrequire
  obtain ⟨_, _, hrequire, h⟩ := Check.ok_of_bind h
  obtain rfl := Check.ok_of_require hrequire
  obtain ⟨_, _, hrequire, h⟩ := Check.ok_of_bind h
  obtain rfl := Check.ok_of_require hrequire
  obtain ⟨_, _, hpopAll, h⟩ := Check.ok_of_bind h
  obtain ⟨b₁, hall, rfl⟩ := Check.ok_of_popAll hpopAll
  obtain ⟨ks₁, rfl, hb₁, hsame₁⟩ := hb.of_popAll hall
  obtain ⟨_, _, hpop, h⟩ := Check.ok_of_bind h
  have hi32 : address = .ofKind .i32 := by
    obtain ⟨m, hm, hm'⟩ := hctx.memory
    obtain ⟨m', hmem, hpure⟩ := ok_of_bind haddress
    have hget : ctx.memory 0 = .ok m := by
      rw [CodeContext.memory, CodeContext.get, hm]
      rfl
    cases hget.symm.trans hmem
    cases hpure
    exact hm'
  subst hi32
  obtain ⟨ks', rfl, b₂, rfl, hb₂, hsame₂⟩ := Comes.of_pop hb₁ hpop
  cases h
  exact ⟨ks', rfl, hb₂.comes_pushAll (hsame₂.trans hsame₁) leaves⟩

theorem localType_of_ok (hctx : ctx.Declares spaces locals) {i : Nat} {t : ValType}
    (h : ctx.localType i = .ok t) : ∃ k, locals[i]? = some k ∧ t = .ofKind k := by
  rw [CodeContext.localType, CodeContext.get, hctx.locals, List.getElem?_toArray, List.getElem?_map] at h
  cases hk : locals[i]? with
  | none =>
    rw [hk] at h
    cases h
  | some k =>
    rw [hk] at h
    cases h
    exact ⟨k, rfl, rfl⟩

/-- **A plain instruction that passed has a type.** -/
theorem Plain.hasType_of_rule (hctx : ctx.Declares spaces locals) {p : Plain}
    (hp : p.isInRange spaces locals = true) (hb : b.Stands ks)
    (h : Typing.rule p.operation ctx (b :: bs) = .ok (u, blocks')) :
    ∃ ks', Instr.HasType spaces locals labels (.plain p) ks ks' ∧ Comes b bs blocks' ks' := by
  cases p with
  | const v =>
    obtain ⟨ks', rfl, hcomes⟩ := Comes.of_compute [] [v.kind] hb h
    exact ⟨_, .words rfl, hcomes⟩
  | arith k op =>
    obtain ⟨ks', rfl, hcomes⟩ := Comes.of_compute [k, k] [k] hb h
    exact ⟨_, .words (if_pos ⟨rfl, rfl⟩), hcomes⟩
  | compare k rel =>
    obtain ⟨ks', rfl, hcomes⟩ := Comes.of_compute [k, k] [.i32] hb h
    exact ⟨_, .words (if_pos ⟨rfl, rfl⟩), hcomes⟩
  | convert c =>
    obtain ⟨ks', rfl, hcomes⟩ := Comes.of_compute [c.source] [c.target] hb h
    exact ⟨_, .words (if_pos rfl), hcomes⟩
  | drop =>
    obtain ⟨w, _, hany, hpure⟩ := Check.ok_of_bind h
    cases hpure
    obtain ⟨b', hpop, rfl⟩ := Check.ok_of_popAny hany
    obtain ⟨k, ks', rfl, -, hb', hsame⟩ := hb.of_pop hpop
    exact ⟨ks', .words rfl, b', rfl, hb', hsame⟩
  | localGet i =>
    obtain ⟨t, _, hask, h⟩ := Check.ok_of_bind h
    obtain ⟨htype, rfl⟩ := Check.ok_of_ask hask
    obtain ⟨k, hk, rfl⟩ := localType_of_ok hctx htype
    refine ⟨k :: ks, .localGet hk, ?_⟩
    have hpush : blocks' = b.pushAll (valTypes [k]) :: bs := by
      cases k <;> cases h <;> rfl
    rw [hpush]
    exact hb.comes_pushAll (.refl b) [k]
  | localSet i =>
    obtain ⟨t, _, hask, h⟩ := Check.ok_of_bind h
    obtain ⟨htype, rfl⟩ := Check.ok_of_ask hask
    obtain ⟨k, hk, rfl⟩ := localType_of_ok hctx htype
    obtain ⟨_, mid, hpop, h⟩ := Check.ok_of_bind h
    obtain ⟨ks', rfl, b', rfl, hb', hsame⟩ := Comes.of_pop hb hpop
    rw [Check.markReady_eq] at h
    cases h
    exact ⟨ks', .localSet hk, b', rfl, hb', hsame⟩
  | localTee i =>
    obtain ⟨t, _, hask, h⟩ := Check.ok_of_bind h
    obtain ⟨htype, rfl⟩ := Check.ok_of_ask hask
    obtain ⟨k, hk, rfl⟩ := localType_of_ok hctx htype
    obtain ⟨_, mid, hpop, h⟩ := Check.ok_of_bind h
    obtain ⟨ks', rfl, b', rfl, hb', hsame⟩ := Comes.of_pop hb hpop
    rw [Check.bind_eq (Check.markReady_eq i k)] at h
    cases h
    exact ⟨k :: ks', .localTee hk, hb'.comes_pushAll hsame [k]⟩
  | globalGet i =>
    have hi := List.getElem?_eq_getElem (of_decide_eq_true hp)
    obtain ⟨g, hg, hgk⟩ := hctx.global hi
    obtain ⟨g', _, hask, h⟩ := Check.ok_of_bind h
    obtain ⟨hglobal, rfl⟩ := Check.ok_of_ask hask
    rw [CodeContext.globalType, CodeContext.get, hg] at hglobal
    cases hglobal
    rw [hgk] at h
    cases h
    exact ⟨_, .globalGet hi, hb.comes_pushAll (.refl b) [_]⟩
  | load op arg =>
    rw [Plain.isInRange, Bool.and_eq_true] at hp
    obtain ⟨ks', rfl, hcomes⟩ := Comes.of_access hctx [] [op.kind] hb h
    exact ⟨_, .load ⟨of_decide_eq_true hp.1, of_decide_eq_true hp.2⟩, hcomes⟩
  | store op arg =>
    rw [Plain.isInRange, Bool.and_eq_true] at hp
    obtain ⟨ks', rfl, hcomes⟩ := Comes.of_access hctx [op.kind] [] hb h
    exact ⟨_, .store ⟨of_decide_eq_true hp.1, of_decide_eq_true hp.2⟩, hcomes⟩

/-- **A call that passed** has taken the arguments of the function. -/
theorem Instr.hasType_of_call (hctx : ctx.Declares spaces locals) {i : Nat} (hi : i < spaces.functions.length)
    (hb : b.Stands ks) (h : Typing.rule (.call false i) ctx (b :: bs) = .ok (u, blocks')) :
    ∃ ks', Instr.HasType spaces locals labels (.call i) ks ks' ∧ Comes b bs blocks' ks' := by
  have ht := List.getElem?_eq_getElem hi
  obtain ⟨s, _, hask, h⟩ := Check.ok_of_bind h
  obtain ⟨hsig, rfl⟩ := Check.ok_of_ask hask
  rw [CodeContext.functionSignature, hctx.function ht] at hsig
  cases hsig
  obtain ⟨_, mid, hpop, hpush⟩ := Check.ok_of_bind h
  obtain ⟨b', hall, rfl⟩ := Check.ok_of_popAll hpop
  rw [FuncType.signature, ← List.map_reverse] at hall
  obtain ⟨ks', rfl, hb', hsame⟩ := hb.of_popAll hall
  cases hpush
  exact ⟨_, .call ht, hb'.comes_pushAll hsame _⟩

/-- **A branch that passed** has taken what its label asks for; any type is right behind it. -/
theorem Instr.hasType_of_br {d : Nat} (hlabels : (b :: bs).map Block.labelTypes = labels.map valTypes)
    (hb : b.Stands ks) (h : Typing.rule (.br d) ctx (b :: bs) = .ok (u, blocks')) :
    (∀ leaves, Instr.HasType spaces locals labels (.br d) ks leaves) ∧
      ∃ b', blocks' = b' :: bs ∧ b'.SameAs b := by
  obtain ⟨ts, _, hlabel, h⟩ := Check.ok_of_bind h
  obtain ⟨htypes, rfl⟩ := Check.ok_of_labelTypes hlabel
  rw [hlabels, List.getElem?_map] at htypes
  obtain ⟨label, hd, rfl⟩ := Option.map_eq_some_iff.1 htypes
  obtain ⟨_, mid, hpop, h⟩ := Check.ok_of_bind h
  obtain ⟨b', hall, rfl⟩ := Check.ok_of_popAll hpop
  rw [← List.map_reverse] at hall
  obtain ⟨ks', rfl, hb', hsame⟩ := hb.of_popAll hall
  cases h
  exact ⟨fun leaves => .br hd, b'.kill, rfl, ⟨hsame.form, hsame.signature⟩⟩

/-- **A conditional that was opened** has taken its condition. -/
theorem Typing.ok_of_openCond {result : Option Kind} (hb : b.Stands ks)
    (h : Typing.step ctx (.block .cond (blockType result)) (b :: bs) = .ok blocks') :
    ∃ ks' b', ks = .i32 :: ks' ∧ b'.Stands ks' ∧ b'.SameAs b ∧
      blocks' = .opened .cond ⟨[], valTypes result.toList⟩ b'.ready :: b' :: bs := by
  obtain ⟨u, h⟩ := Typing.ok_of_step h
  obtain ⟨s, _, hask, h⟩ := Check.ok_of_bind h
  obtain ⟨hsig, rfl⟩ := Check.ok_of_ask hask
  rw [Passes.blockSignature_eq] at hsig
  cases hsig
  have h : (Check.pop (.ofKind .i32) >>= fun _ => Check.popAll [] >>= fun _ =>
      Check.enter .cond ⟨[], valTypes result.toList⟩) ctx (b :: bs) = .ok (u, blocks') := h
  obtain ⟨_, _, hpop, h⟩ := Check.ok_of_bind h
  obtain ⟨ks', rfl, b', rfl, hb', hsame⟩ := Comes.of_pop hb hpop
  cases h
  exact ⟨ks', b', rfl, hb', hsame, rfl⟩

/-- **Where the second arm begins,** the first one could be closed. -/
theorem Typing.ok_of_otherwise {inner : Block} (h : Typing.step ctx .otherwise (inner :: b :: bs) = .ok blocks') :
    inner.close ctx.types = .ok () ∧ blocks' = .opened .otherwise inner.signature b.ready :: b :: bs := by
  obtain ⟨u, h⟩ := Typing.ok_of_step h
  obtain ⟨_, _, hleave, h⟩ := Check.ok_of_bind h
  obtain ⟨hclose, rfl, rfl⟩ := Check.ok_of_leave hleave
  cases h
  exact ⟨hclose, rfl⟩

/-- **A block that was closed** could be closed, and leaves its results. -/
theorem Typing.ok_of_finish {inner : Block} (hform : inner.form ≠ .cond)
    (h : Typing.step ctx .finish (inner :: b :: bs) = .ok blocks') :
    inner.close ctx.types = .ok () ∧ blocks' = b.pushAll inner.signature.results :: bs := by
  obtain ⟨u, h⟩ := Typing.ok_of_step h
  obtain ⟨_, _, hleave, h⟩ := Check.ok_of_bind h
  obtain ⟨hclose, rfl, rfl⟩ := Check.ok_of_leave hleave
  rw [if_neg hform] at h
  cases h
  exact ⟨hclose, rfl⟩

/-- **A conditional with one arm that was closed** could be closed, and so could an empty second arm. -/
theorem Typing.ok_of_finishCond {inner : Block} (hform : inner.form = .cond)
    (h : Typing.step ctx .finish (inner :: b :: bs) = .ok blocks') :
    inner.close ctx.types = .ok () ∧
      (Block.opened .otherwise inner.signature b.ready).close ctx.types = .ok () ∧
      blocks' = b.pushAll inner.signature.results :: bs := by
  obtain ⟨u, h⟩ := Typing.ok_of_step h
  obtain ⟨_, _, hleave, h⟩ := Check.ok_of_bind h
  obtain ⟨hclose, rfl, rfl⟩ := Check.ok_of_leave hleave
  rw [if_pos hform] at h
  obtain ⟨_, _, henter, h⟩ := Check.ok_of_bind h
  cases henter
  obtain ⟨_, _, hleave', h⟩ := Check.ok_of_bind h
  obtain ⟨hclose', rfl, rfl⟩ := Check.ok_of_leave hleave'
  cases h
  exact ⟨hclose, hclose', rfl⟩

end Rules

/-! ## Code -/

section Code

variable {ctx : CodeContext} {spaces : IndexSpaces} {locals : List Kind}

mutual

/-- **An orderly instruction that passed has a type.** -/
theorem Instr.hasType_of_steps (hctx : ctx.Declares spaces locals) :
    ∀ {i : Instr} {labels : List (List Kind)} {ks : List Kind} {b : Block} {bs blocks' : Blocks},
      i.isOrderly spaces locals = true → b.Stands ks →
      (b :: bs).map Block.labelTypes = labels.map valTypes →
      Typing.steps ctx (i.flatten.map Opcode.operation) (b :: bs) = .ok blocks' →
      ∃ ks', Instr.HasType spaces locals labels i ks ks' ∧ Comes b bs blocks' ks'
  | .plain p, _, _, _, _, _, hi, hb, _, h => by
    obtain ⟨u, h⟩ := Typing.ok_of_steps_singleton h
    exact Plain.hasType_of_rule hctx hi hb h
  | .call i, _, _, _, _, _, hi, hb, _, h => by
    obtain ⟨u, h⟩ := Typing.ok_of_steps_singleton h
    exact Instr.hasType_of_call hctx (of_decide_eq_true hi) hb h
  | .br _, _, _, _, _, _, hi, _, _, _ => nomatch hi
  | .cond result first [], labels, ks, b, bs, blocks', hi, hb, hlabels, h => by
    rw [Instr.isOrderly, Bool.and_eq_true] at hi
    rw [Instr.flatten, List.map_append, List.map_cons] at h
    obtain ⟨_, hfirst, hlast⟩ := Typing.ok_of_steps_append h
    obtain ⟨_, hopen, hfirst⟩ := ok_of_bind hfirst
    obtain ⟨ks', b', rfl, hb', hsame, rfl⟩ := Typing.ok_of_openCond hb hopen
    have hinner : (Block.opened .cond ⟨[], valTypes result.toList⟩ b'.ready :: b' :: bs).map Block.labelTypes =
        (result.toList :: labels).map valTypes := by
      rw [List.map_cons, List.map_cons, hsame.labelTypes, List.map_cons, ← hlabels]
      rfl
    obtain ⟨inner, rfl, hsame', htype⟩ := Code.hasType_of_arm hctx hi.1 (Block.stands_opened ..) hinner hfirst
    obtain ⟨_, hfinish, hnil⟩ := ok_of_bind hlast
    cases hnil
    obtain ⟨hclose, hclose', rfl⟩ := Typing.ok_of_finishCond hsame'.form hfinish
    have hsignature : inner.signature = ⟨[], valTypes result.toList⟩ := hsame'.signature
    have hresults : inner.signature.results = valTypes result.toList := by rw [hsignature]
    rw [hsignature] at hclose'
    have hsecond : [] = result.toList.reverse := (Block.stands_opened ..).of_close rfl hclose'
    have hfirst := htype _ hresults hclose
    rw [Passes.reverse_toList] at hsecond hfirst
    rw [hresults]
    refine ⟨result.toList ++ ks', .cond hfirst ?_, ?_⟩
    · rw [← hsecond]
      exact .nil
    · have hcomes : Comes b bs _ _ := hb'.comes_pushAll hsame result.toList
      rwa [Passes.reverse_toList] at hcomes
  | .cond result first (i :: second), labels, ks, b, bs, blocks', hi, hb, hlabels, h => by
    rw [Instr.isOrderly, Bool.and_eq_true] at hi
    rw [Instr.flatten, List.map_append, List.map_append, List.map_cons, List.map_cons] at h
    obtain ⟨_, hboth, hlast⟩ := Typing.ok_of_steps_append h
    obtain ⟨_, hfirst, hsecond⟩ := Typing.ok_of_steps_append hboth
    obtain ⟨_, hopen, hfirst⟩ := ok_of_bind hfirst
    obtain ⟨ks', b', rfl, hb', hsame, rfl⟩ := Typing.ok_of_openCond hb hopen
    have hlabels' : (b' :: bs).map Block.labelTypes = labels.map valTypes := by
      rw [← hlabels, List.map_cons, List.map_cons, hsame.labelTypes]
    have hinner (form : BlockForm) (hform : form ≠ .loop) (ready : List Nat) :
        (Block.opened form ⟨[], valTypes result.toList⟩ ready :: b' :: bs).map Block.labelTypes =
          (result.toList :: labels).map valTypes := by
      rw [List.map_cons, hlabels', List.map_cons]
      cases form <;> first | rfl | exact absurd rfl hform
    obtain ⟨inner, rfl, hsame₁, htype₁⟩ :=
      Code.hasType_of_arm hctx hi.1 (Block.stands_opened ..) (hinner .cond nofun _) hfirst
    obtain ⟨_, hmiddle, hsecond⟩ := ok_of_bind hsecond
    obtain ⟨hclose₁, rfl⟩ := Typing.ok_of_otherwise hmiddle
    have hresults₁ : inner.signature = ⟨[], valTypes result.toList⟩ := hsame₁.signature
    rw [hresults₁] at hsecond
    obtain ⟨inner', rfl, hsame₂, htype₂⟩ :=
      Code.hasType_of_arm hctx hi.2 (Block.stands_opened ..) (hinner .otherwise nofun _) hsecond
    obtain ⟨_, hfinish, hnil⟩ := ok_of_bind hlast
    cases hnil
    have hform : inner'.form ≠ .cond := by
      rw [hsame₂.form]
      exact nofun
    obtain ⟨hclose₂, rfl⟩ := Typing.ok_of_finish hform hfinish
    have hresults₂ : inner'.signature.results = valTypes result.toList := by rw [hsame₂.signature]; rfl
    have h₁ := htype₁ result.toList (by rw [hresults₁]) hclose₁
    have h₂ := htype₂ result.toList hresults₂ hclose₂
    have hcomes : Comes b bs _ _ := hb'.comes_pushAll hsame result.toList
    rw [Passes.reverse_toList] at h₁ h₂ hcomes
    rw [hresults₂]
    exact ⟨result.toList ++ ks', .cond h₁ h₂, hcomes⟩
  | .loop body, labels, ks, b, bs, blocks', hi, hb, hlabels, h => by
    rw [Instr.flatten, List.map_append, List.map_cons] at h
    obtain ⟨_, hbody, hlast⟩ := Typing.ok_of_steps_append h
    obtain ⟨_, hopen, hbody⟩ := ok_of_bind hbody
    cases hopen
    have hinner : (Block.opened .loop ⟨[], []⟩ b.ready :: b :: bs).map Block.labelTypes =
        ([] :: labels).map valTypes := by
      rw [List.map_cons, hlabels]
      rfl
    obtain ⟨ks', htype, inner, rfl, hstands, hsame⟩ :=
      Code.hasType_of_steps hctx hi (Block.stands_opened .loop [] b.ready) hinner hbody
    obtain ⟨_, hfinish, hnil⟩ := ok_of_bind hlast
    cases hnil
    have hform : inner.form ≠ .cond := by
      rw [hsame.form]
      exact nofun
    obtain ⟨hclose, rfl⟩ := Typing.ok_of_finish hform hfinish
    have hresults : inner.signature.results = valTypes [] := by rw [hsame.signature]; rfl
    obtain rfl : ks' = [] := hstands.of_close hresults hclose
    rw [hresults]
    exact ⟨ks, .loop htype, hb.comes_pushAll (.refl b) []⟩

/-- **Orderly code that passed has a type.** -/
theorem Code.hasType_of_steps (hctx : ctx.Declares spaces locals) :
    ∀ {code : Code} {labels : List (List Kind)} {ks : List Kind} {b : Block} {bs blocks' : Blocks},
      code.isOrderly spaces locals = true → b.Stands ks →
      (b :: bs).map Block.labelTypes = labels.map valTypes →
      Typing.steps ctx code.operations (b :: bs) = .ok blocks' →
      ∃ ks', Code.HasType spaces locals labels code ks ks' ∧ Comes b bs blocks' ks'
  | [], _, ks, b, _, _, _, hb, _, h => by
    cases h
    exact ⟨ks, .nil, b, rfl, hb, .refl b⟩
  | i :: is, labels, ks, b, bs, blocks', hc, hb, hlabels, h => by
    rw [Code.isOrderly, Bool.and_eq_true] at hc
    rw [Code.operations, Code.flatten, List.map_append] at h
    obtain ⟨_, hfirst, hrest⟩ := Typing.ok_of_steps_append h
    obtain ⟨ks₁, htype, b₁, rfl, hb₁, hsame₁⟩ := Instr.hasType_of_steps hctx hc.1 hb hlabels hfirst
    have hlabels₁ : (b₁ :: bs).map Block.labelTypes = labels.map valTypes := by
      rw [← hlabels, List.map_cons, List.map_cons, hsame₁.labelTypes]
    obtain ⟨ks', htypes, b', rfl, hb', hsame'⟩ := Code.hasType_of_steps hctx hc.2 hb₁ hlabels₁ hrest
    exact ⟨ks', .cons htype htypes, b', rfl, hb', hsame'.trans hsame₁⟩

/-- **An arm that passed has every type that its block can be closed with.** -/
theorem Code.hasType_of_arm (hctx : ctx.Declares spaces locals) :
    ∀ {code : Code} {labels : List (List Kind)} {ks : List Kind} {b : Block} {bs blocks' : Blocks},
      code.isArm spaces locals = true → b.Stands ks →
      (b :: bs).map Block.labelTypes = labels.map valTypes →
      Typing.steps ctx code.operations (b :: bs) = .ok blocks' →
      ∃ b', blocks' = b' :: bs ∧ b'.SameAs b ∧
        ∀ results : List Kind, b'.signature.results = valTypes results → b'.close ctx.types = .ok () →
          Code.HasType spaces locals labels code ks results.reverse
  | [], _, ks, b, _, _, _, hb, _, h => by
    cases h
    refine ⟨b, rfl, .refl b, fun results hresults hclose => ?_⟩
    rw [hb.of_close hresults hclose]
    exact .nil
  | i :: is, labels, ks, b, bs, blocks', hc, hb, hlabels, h => by
    rw [Code.operations, Code.flatten, List.map_append] at h
    rcases Code.isArm_cases hc with ⟨d, rfl, rfl, -⟩ | ⟨hi, his⟩
    · obtain ⟨u, hrule⟩ := Typing.ok_of_steps_singleton h
      obtain ⟨htype, b', rfl, hsame⟩ := Instr.hasType_of_br hlabels hb hrule
      exact ⟨b', rfl, hsame, fun results _ _ => .single (htype _)⟩
    · obtain ⟨_, hfirst, hrest⟩ := Typing.ok_of_steps_append h
      obtain ⟨ks₁, htype, b₁, rfl, hb₁, hsame₁⟩ := Instr.hasType_of_steps hctx hi hb hlabels hfirst
      have hlabels₁ : (b₁ :: bs).map Block.labelTypes = labels.map valTypes := by
        rw [← hlabels, List.map_cons, List.map_cons, hsame₁.labelTypes]
      obtain ⟨b', rfl, hsame', htypes⟩ := Code.hasType_of_arm hctx his hb₁ hlabels₁ hrest
      exact ⟨b', rfl, hsame'.trans hsame₁, fun results hresults hclose =>
        .cons htype (htypes results hresults hclose)⟩

end

end Code

/-- **Operations that passed wherever they stand** have passed. -/
theorem Typing.ok_of_run {ctx : CodeContext} {os : List Located} {blocks blocks' : Blocks}
    (h : run ctx os blocks = .ok blocks') : steps ctx (os.map Located.operation) blocks = .ok blocks' := by
  induction os generalizing blocks with
  | nil =>
    cases h
    rfl
  | cons o os ih =>
    rw [run] at h
    cases hstep : step ctx o.operation blocks with
    | error e =>
      rw [hstep] at h
      cases h
    | ok mid =>
      rw [hstep] at h
      rw [List.map_cons, steps_cons hstep]
      exact ih h

/-- **The body of a function that passed has the type of the function,** if its code is orderly. -/
theorem Typing.hasType_of_body {ctx : CodeContext} {spaces : IndexSpaces} {locals results : List Kind}
    {code : Code} {ops : List Located} {params : Nat} (hctx : ctx.Declares spaces locals)
    (hresults : ctx.results = valTypes results) (hcode : code.isOrderly spaces locals = true)
    (hops : ops.map Located.operation = code.operations ++ [.finish])
    (h : Typing.body ctx params ⟨ops, none⟩ = .ok ()) :
    Code.HasType spaces locals [results] code [] results.reverse := by
  obtain ⟨blocks, hrun, -⟩ := ok_of_bind h
  have hsteps := ok_of_run hrun
  rw [hops, hresults] at hsteps
  obtain ⟨mid, hpass, hfinish⟩ := ok_of_steps_append hsteps
  have hlabels : [Block.opened .body ⟨[], valTypes results⟩ (List.range params)].map Block.labelTypes =
      [results].map valTypes := rfl
  obtain ⟨ks, htype, b, rfl, hb, hsame⟩ :=
    Code.hasType_of_steps hctx hcode (Block.stands_opened ..) hlabels hpass
  obtain ⟨u, hrule⟩ := ok_of_steps_singleton hfinish
  obtain ⟨_, _, hleave, -⟩ := Check.ok_of_bind hrule
  obtain ⟨hclose, -, -⟩ := Check.ok_of_leave hleave
  have hsignature : b.signature.results = valTypes results := by rw [hsame.signature]; rfl
  obtain rfl := hb.of_close hsignature hclose
  exact htype

end Wasm
end WasmLowering
