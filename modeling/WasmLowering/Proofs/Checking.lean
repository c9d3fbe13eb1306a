/-
# Typed code passes the check

The check works through opcodes one by one over a list of open blocks, each with
the words left in it; the rules of `WasmLowering.Proofs.CodeTyping` speak about
structured code.  Code that has a type by the rules passes the check:

* a block `Holds` the kinds that the rules tell of, all of them or, behind a
  branch, only the topmost ones;
* an instruction that takes kinds and leaves others takes a block that holds the
  one to a block that holds the other, and leaves the blocks around it alone
  (`Passes`).

A label of the rules is what a branch to the open block of its number takes.
-/

import WasmLowering.Proofs.CodeTyping
import WasmLowering.Wasm.Typing

namespace WasmLowering

/-- The types of kinds. -/
abbrev valTypes (ks : List Kind) : List Wasm.ValType := ks.map .ofKind

/-- The type of a function, as it is checked. -/
def FuncType.signature (t : FuncType) : Wasm.Signature := ⟨valTypes t.params, valTypes t.results⟩

/-- The definition of the type of a function, which stands alone. -/
def FuncType.definition (t : FuncType) : Wasm.TypeDef :=
  { isFinal := true, parent := none, isShared := false, describes := none, descriptor := none,
    shape := .func t.signature }

theorem Kind.eq_of_mem_some (k : Kind) : ∀ t ∈ some (Wasm.ValType.ofKind k), t = .ofKind k := by
  rintro _ ⟨⟩
  rfl

namespace Wasm

/-! ## Blocks -/

namespace Block

/-- A block holds words of some kinds, topmost first.  In a block that is never run on, the lower ones may
be missing. -/
def Holds (b : Block) (ks : List Kind) : Prop :=
  ∃ top hidden, ks = top ++ hidden ∧ b.operands = (valTypes top).map .known ∧
    (hidden = [] ∨ b.isDead = true)

/-- A block is the same one as another, with other words in it. -/
structure SameAs (b b' : Block) : Prop where
  form : b.form = b'.form
  signature : b.signature = b'.signature

variable {b : Block} {k : Kind} {ks : List Kind}

theorem SameAs.refl (b : Block) : b.SameAs b := ⟨rfl, rfl⟩

theorem SameAs.trans {b b' b'' : Block} (h : b.SameAs b') (h' : b'.SameAs b'') : b.SameAs b'' :=
  ⟨h.form.trans h'.form, h.signature.trans h'.signature⟩

theorem SameAs.labelTypes {b b' : Block} (h : b.SameAs b') : b.labelTypes = b'.labelTypes := by
  unfold Block.labelTypes
  rw [h.form, h.signature]

/-- **The topmost word can be taken,** as a word of its kind or as any word. -/
theorem Holds.pop (h : b.Holds (k :: ks)) (space : TypeSpace) {expected : Option ValType}
    (he : ∀ t ∈ expected, t = .ofKind k) :
    ∃ w b', b.pop space expected = .ok (w, b') ∧ b'.Holds ks ∧ b'.SameAs b := by
  obtain ⟨top, hidden, heq, hops, hdead⟩ := h
  cases top with
  | nil =>
    obtain rfl : hidden = k :: ks := heq.symm
    have hd : b.isDead = true := hdead.resolve_left nofun
    have hpop : b.pop space expected = .ok (.any, b) := by
      rw [Block.pop, hops]
      exact if_pos hd
    exact ⟨_, _, hpop, ⟨[], ks, rfl, hops, .inr hd⟩, .refl b⟩
  | cons j top =>
    obtain ⟨rfl, rfl⟩ := List.cons.inj heq
    have hpop : b.pop space expected =
        .ok (.known (.ofKind k), { b with operands := (valTypes top).map .known }) := by
      rw [Block.pop, hops]
      cases expected with
      | none => rfl
      | some t =>
        obtain rfl := he t rfl
        exact if_pos (TypeSpace.valLe_refl ..)
    exact ⟨_, _, hpop, ⟨top, hidden, rfl, rfl, hdead⟩, ⟨rfl, rfl⟩⟩

/-- **Words of the topmost kinds can be taken.** -/
theorem Holds.popAll (space : TypeSpace) :
    ∀ {b : Block} {takes ks : List Kind}, b.Holds (takes ++ ks) →
      ∃ b', b.popAll space (valTypes takes) = .ok b' ∧ b'.Holds ks ∧ b'.SameAs b
  | b, [], _, h => ⟨b, rfl, h, .refl b⟩
  | b, k :: takes, ks, h => by
    obtain ⟨w, b₁, hpop, h₁, hsame⟩ := h.pop space (Kind.eq_of_mem_some k)
    obtain ⟨b₂, hall, h₂, hsame'⟩ := h₁.popAll space
    refine ⟨b₂, ?_, h₂, hsame'.trans hsame⟩
    show (b.pop space (some (.ofKind k)) >>= _) = _
    rw [hpop]
    exact hall

/-- **Words that are left are held,** the last one topmost. -/
theorem Holds.pushAll (h : b.Holds ks) (leaves : List Kind) :
    (b.pushAll (valTypes leaves)).Holds (leaves.reverse ++ ks) := by
  obtain ⟨top, hidden, rfl, hops, hdead⟩ := h
  refine ⟨leaves.reverse ++ top, hidden, (List.append_assoc ..).symm, ?_, hdead⟩
  show ((valTypes leaves).map Operand.known).reverse ++ b.operands = _
  simp only [hops, valTypes, List.map_append, List.map_reverse]

/-- **Behind a branch** a block holds anything. -/
theorem holds_kill (b : Block) (ks : List Kind) : b.kill.Holds ks := ⟨[], ks, rfl, rfl, .inr rfl⟩

/-- **A block closes over its results.** -/
theorem Holds.close {results : List Kind} (h : b.Holds results.reverse)
    (hs : b.signature.results = valTypes results) (space : TypeSpace) : b.close space = .ok () := by
  rw [← List.append_nil results.reverse] at h
  obtain ⟨b', hall, ⟨top, hidden, hnil, hops, _⟩, _⟩ := h.popAll space
  obtain ⟨rfl, rfl⟩ := List.append_eq_nil_iff.1 hnil.symm
  unfold Block.close
  rw [hs, ← List.map_reverse, hall]
  show (unless b'.operands.isEmpty do throw .leftoverOperands : Except Violation Unit) = _
  rw [hops]
  rfl

/-- **A block is opened with its parameters.** -/
theorem holds_opened (form : BlockForm) (results : List ValType) (ready : List Nat) :
    (opened form ⟨[], results⟩ ready).Holds [] := ⟨[], [], rfl, rfl, .inl rfl⟩

end Block

/-! ## Operations -/

/-- Whether constant expressions may use an operation as well. -/
def IntOp.isConst : IntOp → Bool
  | add | sub | mul => true
  | _ => false

/-- A plain instruction, as it is checked. -/
def Plain.operation : Plain → Operation
  | const v => .compute ⟨[], [.ofKind v.kind]⟩ true
  | arith k op => .compute ⟨[.ofKind k, .ofKind k], [.ofKind k]⟩ op.isConst
  | compare k _ => .compute ⟨[.ofKind k, .ofKind k], [.i32]⟩ false
  | convert c => .compute ⟨[.ofKind c.source], [.ofKind c.target]⟩ false
  | localGet i => .localGet i
  | localSet i => .localSet i
  | localTee i => .localTee i
  | globalGet i => .globalGet i
  | drop => .drop
  | load op arg =>
    .access ⟨0, arg.align, op.naturalAlign, false, arg.offset, ⟨[], [.ofKind op.kind]⟩⟩ none
  | store op arg =>
    .access ⟨0, arg.align, op.naturalAlign, false, arg.offset, ⟨[.ofKind op.kind], []⟩⟩ none

/-- The type of a block with at most one result. -/
def blockType : Option Kind → BlockType
  | none => .empty
  | some k => .value (.ofKind k)

/-- An opcode, as it is checked. -/
def Opcode.operation : Opcode → Operation
  | plain p => p.operation
  | call i => .call false i
  | br d => .br d
  | cond result => .block .cond (blockType result)
  | loop => .block .loop .empty
  | otherwise => .otherwise
  | finish => .finish

/-- The operations of code. -/
def Code.operations (code : Code) : List Operation := code.flatten.map Opcode.operation

namespace Typing

/-- The open blocks after operations. -/
def steps (ctx : CodeContext) : List Operation → Blocks → Except Violation Blocks
  | [], blocks => .ok blocks
  | o :: os, blocks => step ctx o blocks >>= steps ctx os

theorem steps_cons {ctx : CodeContext} {o : Operation} {blocks blocks' : Blocks}
    (h : step ctx o blocks = .ok blocks') (os : List Operation) :
    steps ctx (o :: os) blocks = steps ctx os blocks' := by
  rw [steps, h]
  rfl

/-- **Operations are checked piece by piece.** -/
theorem steps_append {ctx : CodeContext} {as : List Operation} {blocks blocks' : Blocks}
    (h : steps ctx as blocks = .ok blocks') (bs : List Operation) :
    steps ctx (as ++ bs) blocks = steps ctx bs blocks' := by
  induction as generalizing blocks with
  | nil =>
    cases h
    rfl
  | cons a as ih =>
    rw [steps] at h
    cases ha : step ctx a blocks with
    | error e =>
      rw [ha] at h
      cases h
    | ok mid =>
      rw [ha] at h
      rw [List.cons_append, steps_cons ha]
      exact ih h

/-- **Where operations stand does not matter** if all of them pass. -/
theorem run_eq_ok {ctx : CodeContext} :
    ∀ {os : List Located} {blocks blocks' : Blocks},
      steps ctx (os.map Located.operation) blocks = .ok blocks' → run ctx os blocks = .ok blocks'
  | [], _, _, h => by
    cases h
    rfl
  | o :: os, blocks, blocks', h => by
    rw [run]
    change (step ctx o.operation blocks >>= _) = _ at h
    cases hstep : step ctx o.operation blocks with
    | error e =>
      rw [hstep] at h
      cases h
    | ok mid =>
      rw [hstep] at h
      exact run_eq_ok h

end Typing

/-! ## Steps of checks -/

namespace Check

variable {α β : Type} {ctx : CodeContext} {b b' : Block} {bs bs' : Blocks}

/-- **Checks go on** from where the first one ends. -/
theorem bind_eq {x : Check α} {f : α → Check β} {a : α} (h : x ctx bs = .ok (a, bs')) :
    (x >>= f) ctx bs = f a ctx bs' := by
  show (x ctx bs >>= fun p => f p.1 ctx p.2) = _
  rw [h]
  rfl

theorem ask_eq {question : CodeContext → Except Violation α} {a : α} (h : question ctx = .ok a) :
    ask question ctx bs = .ok (a, bs) := by
  show ((liftM (question ctx) : Check α) ctx bs) = _
  rw [h]
  rfl

theorem popAny_eq {expected : Option ValType} {w : Operand}
    (h : b.pop ctx.types expected = .ok (w, b')) :
    popAny expected ctx (b :: bs) = .ok (w, b' :: bs) := by
  show ((liftM (b.pop ctx.types expected) >>= fun p => replace p.2 >>= fun _ => pure p.1 :
    Check Operand) ctx (b :: bs)) = _
  rw [h]
  rfl

theorem pop_eq {expected : ValType} {w : Operand}
    (h : b.pop ctx.types (some expected) = .ok (w, b')) :
    pop expected ctx (b :: bs) = .ok ((), b' :: bs) :=
  bind_eq (popAny_eq h)

theorem popAll_eq {expected : List ValType} (h : b.popAll ctx.types expected = .ok b') :
    popAll expected ctx (b :: bs) = .ok ((), b' :: bs) := by
  show ((liftM (b.popAll ctx.types expected) >>= fun b => replace b : Check Unit) ctx (b :: bs)) = _
  rw [h]
  rfl

theorem require_eq {condition : Bool} {cause : Violation} (h : condition = true) :
    Typing.require condition cause ctx bs = .ok ((), bs) := by
  rw [h]
  rfl

theorem labelTypes_eq {d : Nat} (h : bs[d]? = some b) :
    labelTypes d ctx bs = .ok (b.labelTypes, bs) := by
  refine (bind_eq (a := bs) rfl).trans ?_
  simp only [h]
  rfl

theorem leave_eq (h : b.close ctx.types = .ok ()) : leave ctx (b :: bs) = .ok (b, bs) := by
  show ((liftM (b.close ctx.types) >>= fun _ => modify List.tail >>= fun _ => pure b : Check Block)
    ctx (b :: bs)) = _
  rw [h]
  rfl

/-- **A local of a number type** is set from the start. -/
theorem markReady_eq (i : Nat) (k : Kind) :
    markReady i (.ofKind k) ctx (b :: bs) = .ok ((), b :: bs) := by
  cases k <;> rfl

end Check

theorem Typing.step_eq {ctx : CodeContext} {op : Operation} {bs bs' : Blocks}
    (h : rule op ctx bs = .ok ((), bs')) : step ctx op bs = .ok bs' := by
  show (rule op ctx bs >>= fun p => pure p.2) = _
  rw [h]
  rfl

/-! ## Typed code -/

/-- A module declares the functions, the globals and the memory that code refers to. -/
structure Declarations.Provides (d : Declarations) (spaces : IndexSpaces) : Prop where
  function {i : Nat} {t : FuncType} :
    spaces.functions[i]? = some t → d.signature? i = some t.signature
  global {i : Nat} {k : Kind} :
    spaces.globals[i]? = some k → ∃ g, d.globals[i]? = some g ∧ g.type = .ofKind k
  memory : ∃ m, d.memories[0]? = some m ∧ m.limits.address = .i32

/-- What code may refer to agrees with index spaces and with the kinds of locals. -/
structure CodeContext.Declares (ctx : CodeContext) (spaces : IndexSpaces) (locals : List Kind) : Prop
    extends ctx.declarations.Provides spaces where
  locals : ctx.locals = (valTypes locals).toArray

/-- Operations pass the check: they take a block that holds words of some kinds to one that holds others,
and leave the blocks around it alone. -/
def Passes (ctx : CodeContext) (labels : List (List Kind)) (ops : List Operation)
    (takes leaves : List Kind) : Prop :=
  ∀ (b : Block) (bs : Blocks), b.Holds takes → (b :: bs).map Block.labelTypes = labels.map valTypes →
    ∃ b', Typing.steps ctx ops (b :: bs) = .ok (b' :: bs) ∧ b'.Holds leaves ∧ b'.SameAs b

section Passing

variable {ctx : CodeContext} {spaces : IndexSpaces} {locals : List Kind} {labels : List (List Kind)}
  {takes mid leaves ks : List Kind}

namespace Passes

theorem nil : Passes ctx labels [] ks ks :=
  fun b _ h _ => ⟨b, rfl, h, .refl b⟩

theorem append {as bs : List Operation} (ha : Passes ctx labels as takes mid)
    (hb : Passes ctx labels bs mid leaves) : Passes ctx labels (as ++ bs) takes leaves := by
  intro b outer h hlabels
  obtain ⟨b₁, h₁, hold₁, hsame₁⟩ := ha b outer h hlabels
  have hlabels₁ : (b₁ :: outer).map Block.labelTypes = labels.map valTypes := by
    rw [← hlabels, List.map_cons, List.map_cons, hsame₁.labelTypes]
  obtain ⟨b₂, h₂, hold₂, hsame₂⟩ := hb b₁ outer hold₁ hlabels₁
  refine ⟨b₂, ?_, hold₂, hsame₂.trans hsame₁⟩
  rw [Typing.steps_append h₁]
  exact h₂

/-- **One operation passes** if its rule does. -/
theorem single {op : Operation}
    (h : ∀ (b : Block) (bs : Blocks), b.Holds takes → (b :: bs).map Block.labelTypes = labels.map valTypes →
      ∃ b', Typing.rule op ctx (b :: bs) = .ok ((), b' :: bs) ∧ b'.Holds leaves ∧ b'.SameAs b) :
    Passes ctx labels [op] takes leaves := by
  intro b bs hold hlabels
  obtain ⟨b', hrule, hold', hsame⟩ := h b bs hold hlabels
  refine ⟨b', ?_, hold', hsame⟩
  exact Typing.steps_cons (Typing.step_eq hrule) []

/-- **A computation** takes words of its kinds and leaves its results. -/
theorem compute (takes leaves ks : List Kind) (isConst : Bool) :
    Passes ctx labels [.compute ⟨valTypes takes, valTypes leaves⟩ isConst] (takes ++ ks)
      (leaves.reverse ++ ks) := by
  refine single fun b bs hold _ => ?_
  obtain ⟨b', hpop, hold', hsame⟩ := hold.popAll ctx.types
  exact ⟨b'.pushAll (valTypes leaves), Check.bind_eq (Check.popAll_eq hpop), hold'.pushAll leaves,
    ⟨hsame.form, hsame.signature⟩⟩

theorem drop (k : Kind) : Passes ctx labels [.drop] (k :: ks) ks := by
  refine single fun b bs hold _ => ?_
  have hany : ∀ t ∈ (none : Option ValType), t = .ofKind k := nofun
  obtain ⟨w, b', hpop, hold', hsame⟩ := hold.pop ctx.types hany
  exact ⟨b', Check.bind_eq (Check.popAny_eq hpop), hold', hsame⟩

/-- **A branch** takes the words of its label. -/
theorem br {d : Nat} {label : List Kind} (hd : labels[d]? = some label) :
    Passes ctx labels [.br d] (label.reverse ++ ks) leaves := by
  refine single fun b bs hold hlabels => ?_
  obtain ⟨target, htarget, htypes⟩ : ∃ target, (b :: bs)[d]? = some target ∧
      target.labelTypes = valTypes label := by
    have h : ((b :: bs).map Block.labelTypes)[d]? = some (valTypes label) := by
      rw [hlabels, List.getElem?_map, hd]
      rfl
    rw [List.getElem?_map] at h
    exact Option.map_eq_some_iff.1 h
  obtain ⟨b', hpop, _, hsame⟩ := hold.popAll ctx.types
  refine ⟨b'.kill, ?_, Block.holds_kill .., ⟨hsame.form, hsame.signature⟩⟩
  show Typing.br d ctx (b :: bs) = _
  unfold Typing.br
  rw [Check.bind_eq (Check.labelTypes_eq htarget), htypes, ← List.map_reverse,
    Check.bind_eq (Check.popAll_eq hpop)]
  rfl

/-- **An access** takes the words above the address, and the address. -/
theorem access (hctx : ctx.Declares spaces locals) {arg : MemArg} {natural : Nat}
    (harg : arg.Fits natural) (takes leaves ks : List Kind) :
    Passes ctx labels
      [.access ⟨0, arg.align, natural, false, arg.offset, ⟨valTypes takes, valTypes leaves⟩⟩ none]
      (takes ++ .i32 :: ks) (leaves.reverse ++ ks) := by
  refine single fun b bs hold _ => ?_
  obtain ⟨b₁, hpop₁, hold₁, hsame₁⟩ := hold.popAll ctx.types
  obtain ⟨_, b₂, hpop₂, hold₂, hsame₂⟩ := hold₁.pop ctx.types (Kind.eq_of_mem_some .i32)
  have haddress : ctx.address 0 = .ok .i32 := by
    obtain ⟨m, hm, hm'⟩ := hctx.memory
    show (do return (← CodeContext.get ctx.declarations.memories 0 _).limits.address) = _
    rw [CodeContext.get, hm, ← hm']
    rfl
  refine ⟨b₂.pushAll (valTypes leaves), ?_, hold₂.pushAll leaves,
    ⟨(hsame₂.trans hsame₁).form, (hsame₂.trans hsame₁).signature⟩⟩
  refine (Check.bind_eq (Check.require_eq rfl)).trans ?_
  refine (Check.bind_eq (Check.ask_eq haddress)).trans ?_
  refine (Check.bind_eq (Check.require_eq (decide_eq_true harg.align))).trans ?_
  refine (Check.bind_eq (Check.require_eq (decide_eq_true harg.offset))).trans ?_
  refine (Check.bind_eq (Check.require_eq rfl)).trans ?_
  refine (Check.bind_eq (Check.popAll_eq hpop₁)).trans ?_
  exact Check.bind_eq (Check.pop_eq hpop₂)

theorem localType_eq (hctx : ctx.Declares spaces locals) {i : Nat} {k : Kind}
    (hi : locals[i]? = some k) : ctx.localType i = .ok (.ofKind k) := by
  rw [CodeContext.localType, CodeContext.get, hctx.locals, List.getElem?_toArray, List.getElem?_map, hi]
  rfl

theorem localGet (hctx : ctx.Declares spaces locals) {i : Nat} {k : Kind} (hi : locals[i]? = some k) :
    Passes ctx labels [.localGet i] ks (k :: ks) := by
  refine single fun b bs hold _ => ⟨b.pushAll (valTypes [k]), ?_, hold.pushAll [k], ⟨rfl, rfl⟩⟩
  show Typing.localGet i ctx (b :: bs) = _
  unfold Typing.localGet
  rw [Check.bind_eq (Check.ask_eq (localType_eq hctx hi))]
  cases k <;> rfl

theorem localSet (hctx : ctx.Declares spaces locals) {i : Nat} {k : Kind} (hi : locals[i]? = some k) :
    Passes ctx labels [.localSet i] (k :: ks) ks := by
  refine single fun b bs hold _ => ?_
  obtain ⟨_, b', hpop, hold', hsame⟩ := hold.pop ctx.types (Kind.eq_of_mem_some k)
  refine ⟨b', ?_, hold', hsame⟩
  rw [Typing.rule, Check.bind_eq (Check.ask_eq (localType_eq hctx hi)), Check.bind_eq (Check.pop_eq hpop),
    Check.markReady_eq]

theorem localTee (hctx : ctx.Declares spaces locals) {i : Nat} {k : Kind} (hi : locals[i]? = some k) :
    Passes ctx labels [.localTee i] (k :: ks) (k :: ks) := by
  refine single fun b bs hold _ => ?_
  obtain ⟨_, b', hpop, hold', hsame⟩ := hold.pop ctx.types (Kind.eq_of_mem_some k)
  refine ⟨b'.pushAll (valTypes [k]), ?_, hold'.pushAll [k], ⟨hsame.form, hsame.signature⟩⟩
  rw [Typing.rule, Check.bind_eq (Check.ask_eq (localType_eq hctx hi)), Check.bind_eq (Check.pop_eq hpop),
    Check.bind_eq (Check.markReady_eq i k)]
  rfl

theorem globalGet (hctx : ctx.Declares spaces locals) {i : Nat} {k : Kind}
    (hi : spaces.globals[i]? = some k) : Passes ctx labels [.globalGet i] ks (k :: ks) := by
  refine single fun b bs hold _ => ⟨b.pushAll (valTypes [k]), ?_, hold.pushAll [k], ⟨rfl, rfl⟩⟩
  obtain ⟨g, hg, hk⟩ := hctx.global hi
  have hglobal : ctx.globalType i = .ok g := by
    rw [CodeContext.globalType, CodeContext.get, hg]
    rfl
  rw [Typing.rule, Check.bind_eq (Check.ask_eq hglobal), hk]
  rfl

theorem call (hctx : ctx.Declares spaces locals) {i : Nat} {t : FuncType}
    (hi : spaces.functions[i]? = some t) :
    Passes ctx labels [.call false i] (t.params.reverse ++ ks) (t.results.reverse ++ ks) := by
  refine single fun b bs hold _ => ?_
  obtain ⟨b', hpop, hold', hsame⟩ := hold.popAll ctx.types
  refine ⟨b'.pushAll (valTypes t.results), ?_, hold'.pushAll t.results, ⟨hsame.form, hsame.signature⟩⟩
  have hsig : ctx.functionSignature i = .ok t.signature := by
    rw [CodeContext.functionSignature, hctx.function hi]
    rfl
  rw [Typing.rule, Check.bind_eq (Check.ask_eq hsig)]
  show Check.apply t.signature ctx (b :: bs) = _
  unfold Check.apply
  rw [FuncType.signature, ← List.map_reverse, Check.bind_eq (Check.popAll_eq hpop)]
  rfl

/-! ### Blocks -/

theorem blockSignature_eq (result : Option Kind) :
    ctx.blockSignature (blockType result) = .ok ⟨[], valTypes result.toList⟩ := by
  match result with
  | none => rfl
  | some .i32 => rfl
  | some .i64 => rfl

theorem reverse_toList (result : Option Kind) : result.toList.reverse = result.toList := by
  cases result <;> rfl

/-- **The code of a block** runs from an empty block to one that can be closed. -/
theorem within {ops : List Operation} {label : List Kind} (form : BlockForm) (results : List Kind)
    (ready : List Nat) (outer : Blocks)
    (h : Passes ctx (label :: labels) ops [] results.reverse)
    (hlabel : (Block.opened form ⟨[], valTypes results⟩ ready).labelTypes = valTypes label)
    (hlabels : outer.map Block.labelTypes = labels.map valTypes) :
    ∃ b, Typing.steps ctx ops (.opened form ⟨[], valTypes results⟩ ready :: outer) = .ok (b :: outer) ∧
      b.close ctx.types = .ok () ∧ b.form = form ∧ b.signature = ⟨[], valTypes results⟩ := by
  obtain ⟨b, hsteps, hold, hsame⟩ := h _ outer (Block.holds_opened form _ ready)
    (by rw [List.map_cons, List.map_cons, hlabel, hlabels])
  have hsig : b.signature.results = valTypes results := by rw [hsame.signature]; rfl
  exact ⟨b, hsteps, hold.close hsig ctx.types, hsame.form, hsame.signature⟩

/-- **Opening a conditional** takes the condition. -/
theorem openCond {b : Block} {bs : Blocks} (hold : b.Holds (.i32 :: ks)) (result : Option Kind) :
    ∃ b', Typing.step ctx (.block .cond (blockType result)) (b :: bs) =
        .ok (.opened .cond ⟨[], valTypes result.toList⟩ b'.ready :: b' :: bs) ∧
      b'.Holds ks ∧ b'.SameAs b := by
  obtain ⟨_, b', hpop, hold', hsame⟩ := hold.pop ctx.types (Kind.eq_of_mem_some .i32)
  refine ⟨b', Typing.step_eq ?_, hold', hsame⟩
  refine (Check.bind_eq (Check.ask_eq (blockSignature_eq result))).trans ?_
  exact Check.bind_eq (Check.pop_eq hpop)

/-- **Passing to the second arm** closes the first one. -/
theorem step_otherwise {inner b : Block} {bs : Blocks} (hclose : inner.close ctx.types = .ok ()) :
    Typing.step ctx .otherwise (inner :: b :: bs) =
      .ok (.opened .otherwise inner.signature b.ready :: b :: bs) :=
  Typing.step_eq (Check.bind_eq (Check.leave_eq hclose))

/-- **Closing a block** leaves its results. -/
theorem step_finish {inner : Block} {outer : Blocks} (hclose : inner.close ctx.types = .ok ())
    (hform : inner.form ≠ .cond) :
    Typing.step ctx .finish (inner :: outer) = .ok (match outer with
      | [] => []
      | b :: bs => b.pushAll inner.signature.results :: bs) := by
  refine Typing.step_eq ((Check.bind_eq (Check.leave_eq hclose)).trans ?_)
  rw [if_neg hform]
  cases outer <;> rfl

/-- **A conditional without a second arm** has no results. -/
theorem step_finishCond {inner b : Block} {bs : Blocks} (hclose : inner.close ctx.types = .ok ())
    (hform : inner.form = .cond) (hsig : inner.signature = ⟨[], []⟩) :
    Typing.step ctx .finish (inner :: b :: bs) = .ok (b.pushAll [] :: bs) := by
  refine Typing.step_eq ((Check.bind_eq (Check.leave_eq hclose)).trans ?_)
  rw [if_pos hform, hsig]
  rfl

/-- **A conditional with two arms.** -/
theorem cond {result : Option Kind} {first second : List Operation}
    (hfirst : Passes ctx (result.toList :: labels) first [] result.toList.reverse)
    (hsecond : Passes ctx (result.toList :: labels) second [] result.toList.reverse) :
    Passes ctx labels
      (.block .cond (blockType result) :: first ++ .otherwise :: second ++ [.finish])
      (.i32 :: ks) (result.toList.reverse ++ ks) := by
  intro b bs hold hlabels
  obtain ⟨b', hopen, hold', hsame⟩ := openCond hold result
  have hlabels' : (b' :: bs).map Block.labelTypes = labels.map valTypes := by
    rw [← hlabels, List.map_cons, List.map_cons, hsame.labelTypes]
  obtain ⟨inner, hrun, hclose, _, hsig⟩ := within .cond _ b'.ready _ hfirst rfl hlabels'
  obtain ⟨inner', hrun', hclose', hform', hsig'⟩ := within .otherwise _ b'.ready _ hsecond rfl hlabels'
  refine ⟨b'.pushAll (valTypes result.toList), ?_, hold'.pushAll _, ⟨hsame.form, hsame.signature⟩⟩
  rw [List.append_assoc, List.cons_append, List.cons_append, Typing.steps_cons hopen,
    Typing.steps_append hrun, Typing.steps_cons (step_otherwise hclose), hsig,
    Typing.steps_append hrun', Typing.steps_cons (step_finish hclose' (by rw [hform']; exact nofun)),
    hsig']
  rfl

/-- **A conditional with one arm.** -/
theorem condOneArm {first : List Operation} (hfirst : Passes ctx ([] :: labels) first [] []) :
    Passes ctx labels (.block .cond .empty :: first ++ [.finish]) (.i32 :: ks) ks := by
  intro b bs hold hlabels
  obtain ⟨b', hopen, hold', hsame⟩ := openCond hold none
  have hlabels' : (b' :: bs).map Block.labelTypes = labels.map valTypes := by
    rw [← hlabels, List.map_cons, List.map_cons, hsame.labelTypes]
  obtain ⟨inner, hrun, hclose, hform, hsig⟩ := within .cond [] b'.ready _ hfirst rfl hlabels'
  refine ⟨b'.pushAll [], ?_, hold'.pushAll [], ⟨hsame.form, hsame.signature⟩⟩
  rw [List.cons_append]
  refine (Typing.steps_cons hopen _).trans ((Typing.steps_append hrun _).trans ?_)
  exact Typing.steps_cons (step_finishCond hclose hform hsig) []

/-- **A loop** leaves what it finds. -/
theorem loop {body : List Operation} (hbody : Passes ctx ([] :: labels) body [] []) :
    Passes ctx labels (.block .loop .empty :: body ++ [.finish]) ks ks := by
  intro b bs hold hlabels
  have hopen : Typing.step ctx (.block .loop .empty) (b :: bs) =
      .ok (.opened .loop ⟨[], []⟩ b.ready :: b :: bs) := rfl
  obtain ⟨inner, hrun, hclose, hform, hsig⟩ := within .loop [] b.ready _ hbody rfl hlabels
  refine ⟨b.pushAll [], ?_, hold.pushAll [], ⟨rfl, rfl⟩⟩
  rw [List.cons_append, Typing.steps_cons hopen]
  refine (Typing.steps_append hrun _).trans ?_
  rw [Typing.steps_cons (step_finish hclose (by rw [hform]; exact nofun)), hsig]
  rfl

end Passes

/-- **A plain instruction on words passes.** -/
theorem Plain.passes_words :
    ∀ {p : Plain} {takes leaves : List Kind}, p.onKinds takes = some leaves →
      Passes ctx labels [p.operation] takes leaves
  | .const v, takes, _, h => by
    cases h
    exact .compute [] [v.kind] takes true
  | .arith k op, _ :: _ :: ks, _, h => by
    obtain ⟨⟨rfl, rfl⟩, ⟨⟩⟩ := Option.ite_none_right_eq_some.1 h
    exact .compute [_, _] [_] ks op.isConst
  | .compare k _, _ :: _ :: ks, _, h => by
    obtain ⟨⟨rfl, rfl⟩, ⟨⟩⟩ := Option.ite_none_right_eq_some.1 h
    exact .compute [_, _] [.i32] ks false
  | .convert c, _ :: ks, _, h => by
    obtain ⟨rfl, ⟨⟩⟩ := Option.ite_none_right_eq_some.1 h
    exact .compute [_] [c.target] ks false
  | .drop, k :: _, _, h => by
    cases h
    exact .drop k
  | .arith .., [], _, h | .arith .., [_], _, h | .compare .., [], _, h | .compare .., [_], _, h
  | .convert _, [], _, h | .drop, [], _, h | .localGet _, _, _, h | .localSet _, _, _, h
  | .localTee _, _, _, h | .globalGet _, _, _, h | .load .., _, _, h | .store .., _, _, h => by
    cases h

mutual

/-- **An instruction that has a type passes the check.** -/
theorem Instr.HasType.passes (hctx : ctx.Declares spaces locals) :
    ∀ {labels : List (List Kind)} {i : Instr} {takes leaves : List Kind},
      Instr.HasType spaces locals labels i takes leaves →
      Passes ctx labels (i.flatten.map Opcode.operation) takes leaves
  | _, _, _, _, .words h => Plain.passes_words h
  | _, _, _, _, .localGet hi => .localGet hctx hi
  | _, _, _, _, .localSet hi => .localSet hctx hi
  | _, _, _, _, .localTee hi => .localTee hctx hi
  | _, _, _, _, .globalGet hi => .globalGet hctx hi
  | _, _, _, _, .load harg => .access hctx harg [] [_] _
  | _, _, _, _, .store harg => .access hctx harg [_] [] _
  | _, _, _, _, .call hi => .call hctx hi
  | _, _, _, _, .br hd => .br hd
  | _, .cond none first [], _, _, .cond hfirst _ => by
    rw [Instr.flatten, List.map_append, List.map_cons]
    exact .condOneArm (hfirst.passes hctx)
  | _, .cond (some k) first [], _, _, .cond _ hsecond => nomatch hsecond
  | _, .cond result first (i :: second), _, _, .cond hfirst hsecond => by
    have h₁ := hfirst.passes hctx
    have h₂ := hsecond.passes hctx
    rw [Instr.flatten, List.map_append, List.map_append, List.map_cons, List.map_cons]
    rw [← Passes.reverse_toList result]
    refine .cond ?_ ?_
    · rw [Passes.reverse_toList]
      exact h₁
    · rw [Passes.reverse_toList]
      exact h₂
  | _, _, _, _, .loop hbody => by
    rw [Instr.flatten, List.map_append, List.map_cons]
    exact .loop (hbody.passes hctx)

/-- **Code that has a type passes the check.** -/
theorem Code.HasType.passes (hctx : ctx.Declares spaces locals) :
    ∀ {labels : List (List Kind)} {code : Code} {takes leaves : List Kind},
      Code.HasType spaces locals labels code takes leaves →
      Passes ctx labels code.operations takes leaves
  | _, _, _, _, .nil => .nil
  | _, _, _, _, .cons hi his => by
    rw [Code.operations, Code.flatten, List.map_append]
    exact (hi.passes hctx).append (his.passes hctx)

end

end Passing

/-- **The body of a function that has its type passes the check,** wherever its operations stand. -/
theorem Typing.body_eq_ok {ctx : CodeContext} {spaces : IndexSpaces} {locals results : List Kind}
    {code : Code} {ops : List Located} (hctx : ctx.Declares spaces locals)
    (hresults : ctx.results = valTypes results)
    (hcode : Code.HasType spaces locals [results] code [] results.reverse)
    (hops : ops.map Located.operation = code.operations ++ [.finish]) (params : Nat) :
    Typing.body ctx params ⟨ops, none⟩ = .ok () := by
  obtain ⟨b, hsteps, hclose, hform, _⟩ :=
    Passes.within .body results (List.range params) [] (hcode.passes hctx) rfl rfl
  have hrun : run ctx ops [.opened .body ⟨[], ctx.results⟩ (List.range params)] = .ok [] := by
    refine run_eq_ok ?_
    rw [hops, hresults, steps_append hsteps]
    exact steps_cons (Passes.step_finish hclose (by rw [hform]; exact nofun)) []
  unfold Typing.body
  rw [hrun]
  rfl

end Wasm

open Wasm

/-- **Lowering is type sound.**  The body of a well-kinded function, traced or not, has the type of the
function by the typing rules, with its locals behind the parameters; and in any module that declares what
the index spaces tell of, its operations pass the check, wherever they stand. -/
theorem Function.typing_lower {spaces : IndexSpaces} {scope : Scope} {traced : Bool} {f : Function}
    {seg seg' : Segment} {body : FuncBody} {d : Declarations} {ops : List Located}
    (hfit : spaces.Fit scope)
    (hhook : traced = true → spaces.functions[Layout.traceHook]? = some ⟨[], []⟩)
    (hkind : f.WellKinded spaces scope) (hlower : f.lower scope traced seg = .ok body seg')
    (hd : d.Provides spaces) (hops : ops.map Located.operation = body.code.operations ++ [.finish]) :
    Code.HasType spaces (f.type.params ++ body.locals) [f.type.results] body.code []
        f.type.results.reverse ∧
      Typing.body
        { declarations := d
          locals := (valTypes (f.type.params ++ body.locals)).toArray
          results := f.type.signature.results }
        f.type.params.length ⟨ops, none⟩ = .ok () := by
  have hcode := Function.hasType_lower hfit hhook hkind hlower [f.type.results]
  exact ⟨hcode, Typing.body_eq_ok ⟨hd, rfl⟩ rfl hcode hops _⟩

namespace Tally

def declarations : Declarations :=
  { Declarations.empty with
    types := ⟨#[0, 1], #[FuncType.definition ⟨[], []⟩, FuncType.definition ⟨[.i32], [.i32]⟩], []⟩
    functions := #[0, 1]
    memories := #[⟨⟨1, none, .i32⟩, false, none⟩]
    globals := #[⟨.i32, false, false⟩] }

theorem provides : declarations.Provides spaces where
  function {i t} ht := by
    match i with
    | 0 => cases ht; rfl
    | 1 => cases ht; rfl
    | _ + 2 => cases ht
  global {i k} hk := by
    match i with
    | 0 => cases hk; exact ⟨_, rfl, rfl⟩
    | _ + 1 => cases hk
  memory := ⟨_, rfl, rfl⟩

end Tally

theorem Tally.typing_function : ∃ body seg', Tally.function.lower Tally.scope true .empty = .ok body seg' ∧
    Code.HasType Tally.spaces ([.i32] ++ body.locals) [[.i32]] body.code [] [.i32] ∧
    Typing.body ⟨Tally.declarations, (valTypes ([.i32] ++ body.locals)).toArray, [.i32]⟩ 1
      ⟨(body.code.operations ++ [Operation.finish]).map (Located.mk 0 ⟨0, 0⟩), none⟩ = .ok () := by
  have hlower : ∃ body seg', Tally.function.lower Tally.scope true .empty = .ok body seg' := ⟨_, _, rfl⟩
  obtain ⟨body, seg', hlower⟩ := hlower
  have hops : ((body.code.operations ++ [Operation.finish]).map (Located.mk 0 ⟨0, 0⟩)).map Located.operation =
      body.code.operations ++ [.finish] := by
    rw [List.map_map]
    exact List.map_id _
  exact ⟨body, seg', hlower, Function.typing_lower Tally.fit (fun _ => rfl) (Tally.wellKinded (i := 1) rfl rfl) hlower
    Tally.provides hops⟩

end WasmLowering
