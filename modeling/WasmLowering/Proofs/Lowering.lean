/-
# What lowering emits

Lowering an expression is a computation on a state that may fail.  Here it is a
relation: `Lowers scope frame st e code st'` says that lowering `e` in the state
`st` succeeds with `code` and leaves `st'`, with one rule per construct that has
code.  `Lowers.of_lower` reads a derivation off a lowering that succeeded, so what
is said about emitted code is said by induction on it, and `Lowers.lower` goes back.

From state to state strings are only added, slots are only added, and the number
of open frames changes by `Expr.shift`, which can be told from the expression.
-/

import WasmLowering.Lower.Expr

namespace WasmLowering

open Wasm

/-- **A result of a computation in two parts** is one of the second part, on one of the first. -/
theorem ok_of_bind {ε α β : Type} {x : Except ε α} {f : α → Except ε β} {b : β}
    (h : (x >>= f) = .ok b) : ∃ a, x = .ok a ∧ f a = .ok b := by
  cases x with
  | ok a => exact ⟨a, rfl, h⟩
  | error e => cases h

/-- **A changed result** is one that there was. -/
theorem ok_of_map {ε α β : Type} {x : Except ε α} {f : α → β} {b : β} (h : x.map f = .ok b) :
    ∃ a, x = .ok a ∧ f a = b := by
  cases x with
  | ok a => exact ⟨a, rfl, Except.ok.inj h⟩
  | error e => cases h

/-- **A computation that gives something with a property** is one that succeeds. -/
theorem ok_of_any {ε α : Type} {x : Except ε α} {c : α → Bool} (h : x.toOption.any c = true) :
    ∃ a, x = .ok a ∧ c a = true := by
  cases x with
  | ok a => exact ⟨a, rfl, h⟩
  | error e => cases h

namespace Lower

/-- **A computation in two parts succeeds if both parts do.** -/
theorem bind_eq_ok {σ α β : Type} {x : EStateM Fault σ α} {f : α → EStateM Fault σ β} {st st' : σ}
    {b : β} :
    (x >>= f) st = .ok b st' ↔ ∃ a mid, x st = .ok a mid ∧ f a mid = .ok b st' := by
  show EStateM.bind x f st = .ok b st' ↔ _
  unfold EStateM.bind
  cases x st with
  | ok a mid =>
    constructor
    · intro h
      exact ⟨a, mid, rfl, h⟩
    · rintro ⟨_, _, h, hf⟩
      cases h
      exact hf
  | error e mid => simp

/-- **A result that needs no state succeeds if it is there.** -/
theorem lift_eq_ok {σ α : Type} {x : Except Fault α} {st st' : σ} {a : α} :
    (MonadExcept.ofExcept x : EStateM Fault σ α) st = .ok a st' ↔ x = .ok a ∧ st = st' := by
  cases x with
  | ok b =>
    show EStateM.Result.ok b st = .ok a st' ↔ _
    simp
  | error e =>
    show EStateM.Result.error e st = .ok a st' ↔ _
    simp

/-- **A result that needs no state succeeds if it is there.** -/
theorem ofExcept_eq_ok {α : Type} {x : Except Fault α} {st st' : LowerState} {a : α} :
    Lower.ofExcept x st = .ok a st' ↔ x = .ok a ∧ st = st' := by
  have h : Lower.ofExcept x = MonadExcept.ofExcept x := by cases x <;> rfl
  rw [h, lift_eq_ok]

/-- **A returned value leaves the state.** -/
theorem pure_eq_ok {σ α : Type} {a b : α} {st st' : σ} :
    (pure a : EStateM Fault σ α) st = .ok b st' ↔ a = b ∧ st = st' := by
  show EStateM.Result.ok a st = .ok b st' ↔ _
  simp

/-- **A changed result** is one that there was, and the state is the same. -/
theorem map_eq_ok {σ α β : Type} {x : EStateM Fault σ α} {g : α → β} {st st' : σ} {b : β} :
    (g <$> x) st = .ok b st' ↔ ∃ a, x st = .ok a st' ∧ g a = b := by
  show EStateM.map g x st = .ok b st' ↔ _
  unfold EStateM.map
  cases x st with
  | ok a mid =>
    simp only [EStateM.Result.ok.injEq]
    constructor
    · rintro ⟨rfl, rfl⟩
      exact ⟨a, ⟨rfl, rfl⟩, rfl⟩
    · rintro ⟨_, ⟨rfl, rfl⟩, rfl⟩
      exact ⟨rfl, rfl⟩
  | error e mid => simp

/-- **The frame check passes if the depth is as before.** -/
theorem expectDepth_eq_ok {construct : String} {before : Nat} {u : Unit} {st st' : LowerState} :
    Lower.expectDepth construct before st = .ok u st' ↔ st.depth = before ∧ st = st' := by
  show (if st.depth = before then (pure () : Lower Unit) else throw _) st = .ok u st' ↔ _
  split
  · rename_i h
    show EStateM.Result.ok () st = .ok u st' ↔ _
    simp [h]
  · rename_i h
    show EStateM.Result.error _ st = .ok u st' ↔ _
    simp [h]

/-- **A frame can be closed if one is open.** -/
theorem closeFrame_eq_ok {d : Nat} {st st' : LowerState} :
    Lower.closeFrame st = .ok d st' ↔ st.depth = d + 1 ∧ { st with depth := d } = st' := by
  obtain ⟨segment, depth, slots⟩ := st
  cases depth with
  | zero =>
    show EStateM.Result.error _ _ = .ok d st' ↔ _
    simp
  | succ n =>
    show EStateM.Result.ok n ⟨segment, n, slots⟩ = .ok d st' ↔ _
    simp only [EStateM.Result.ok.injEq, Nat.add_right_cancel_iff]
    constructor
    · rintro ⟨rfl, rfl⟩
      exact ⟨rfl, rfl⟩
    · rintro ⟨rfl, rfl⟩
      exact ⟨rfl, rfl⟩

/-- **The depth can be looked up.** -/
theorem get_eq_ok {st st' st'' : LowerState} : (get : Lower LowerState) st = .ok st'' st' ↔
    st = st'' ∧ st = st' := by
  show EStateM.Result.ok st st = .ok st'' st' ↔ _
  simp

end Lower

/-- **A bound name has its index.** -/
theorem Scope.global_eq_ok {scope : Scope} {name : String} {i : Nat} :
    scope.global name = .ok i ↔ scope.global? name = some i := by
  unfold global
  cases scope.global? name <;> simp

/-- **A bound name has its index.** -/
theorem Scope.function_eq_ok {scope : Scope} {name : String} {i : Nat} :
    scope.function name = .ok i ↔ scope.function? name = some i := by
  unfold function
  cases scope.function? name <;> simp

/-- The state after placing a string. -/
def LowerState.interned (st : LowerState) (s : String) : LowerState :=
  { st with segment := (st.segment.intern s).2 }

/-- The state after opening a frame. -/
def LowerState.opened (st : LowerState) : LowerState :=
  { st with depth := st.depth + 1, slots := max st.slots (st.depth + 1) }

namespace Frame

/-- **A variable stands below the frame slots, and not in a scratch register.** -/
theorem localIndex_eq_ok {f : Frame} {i j : Nat} (h : f.localIndex i = .ok j) :
    (i < f.args ∧ j = i) ∨ (f.args ≤ i ∧ i < f.args + f.locals ∧ j = i + 3) := by
  unfold localIndex at h
  split at h
  · rename_i hi
    cases h
    exact .inl ⟨hi, rfl⟩
  · split at h
    · rename_i hi hi'
      cases h
      exact .inr ⟨by omega, hi', rfl⟩
    · cases h

/-- **Variables have different locals.** -/
theorem localIndex_injective {f : Frame} {i i' j : Nat} (h : f.localIndex i = .ok j)
    (h' : f.localIndex i' = .ok j) : i = i' := by
  have := localIndex_eq_ok h
  have := localIndex_eq_ok h'
  omega

/-- **A variable is no frame slot.** -/
theorem localIndex_lt_slot {f : Frame} {i j : Nat} (h : f.localIndex i = .ok j) (d : Nat) :
    j < f.slot d := by
  have := localIndex_eq_ok h
  unfold slot scratchKinds
  simp only [List.length_cons, List.length_nil]
  omega

theorem slot_eq (f : Frame) (d : Nat) : f.slot d = f.args + 3 + f.locals + d := rfl

end Frame

mutual

/-- Lowering an expression succeeds with some code and takes one state to another. -/
inductive Lowers (scope : Scope) (frame : Frame) : LowerState → Expr → Code → LowerState → Prop
  | var {st : LowerState} {i j : Nat} :
    frame.localIndex i = .ok j → Lowers scope frame st (.var i) [.localGet j] st
  | global {st : LowerState} {name : String} {i : Nat} :
    scope.global name = .ok i → Lowers scope frame st (.global name) [.globalGet i] st
  | literal {st : LowerState} {w : Width} {text : String} {v : Value} :
    Literal.parse w text = .ok v → Lowers scope frame st (.literal w text) [.const v] st
  | string {st : LowerState} {text : String} :
    Lowers scope frame st (.string text) (Segment.address (st.segment.intern text).1)
      (st.interned text)
  | binary {st st₁ st₂ : LowerState} {op : Operator} {w : Width} {lhs rhs : Expr}
      {left right apply : Code} :
    Lowers scope frame st lhs left st₁ → Lowers scope frame st₁ rhs right st₂ →
      op.lower w = .ok apply →
      Lowers scope frame st (.binary op w lhs rhs) (left ++ right ++ apply) st₂
  | call {st st' : LowerState} {name : String} {args : List Expr} {i : Nat} {operands : Code} :
    scope.function name = .ok i → LowersArgs scope frame st args operands st' →
      Lowers scope frame st (.call name args)
        (operands ++ .call i :: if scope.hasResult i then [] else [.unit]) st'
  | bufCreate {st st' : LowerState} {size : Nat} {count : Expr} {number : Code} :
    Lowers scope frame st count number st' →
      Lowers scope frame st (.bufCreate size count)
        (Highwater.read ++ number ++ [.constI32 size, .arith .i32 .mul]
          ++ Highwater.grow frame.registers) st'
  | bufRead {st st₁ st₂ : LowerState} {size : Nat} {base index : Expr} {start position : Code}
      {load : Instr} :
    Lowers scope frame st base start st₁ → Lowers scope frame st₁ index position st₂ →
      loadElement size = .ok load →
      Lowers scope frame st (.bufRead size base index)
        (start ++ position ++ elementAddress size ++ [load]) st₂
  | bufWrite {st st₁ st₂ st₃ : LowerState} {size : Nat} {base index value : Expr}
      {start position word : Code} {store : Instr} :
    Lowers scope frame st base start st₁ → Lowers scope frame st₁ index position st₂ →
      Lowers scope frame st₂ value word st₃ → storeElement size = .ok store →
      Lowers scope frame st (.bufWrite size base index value)
        (start ++ position ++ elementAddress size ++ word ++ [store, .unit]) st₃
  | bufSub {st st₁ st₂ : LowerState} {size : Nat} {base index : Expr} {start position : Code} :
    Lowers scope frame st base start st₁ → Lowers scope frame st₁ index position st₂ →
      Lowers scope frame st (.bufSub size base index)
        (start ++ position ++ elementAddress size) st₂
  | cast {st st' : LowerState} {operand : Expr} {source target : Width} {word convert : Code} :
    Lowers scope frame st operand word st' → source.castTo target = .ok convert →
      Lowers scope frame st (.cast operand source target) (word ++ convert) st'
  | ifThenElse {st st₁ st₂ st₃ : LowerState} {cond whenTrue whenFalse : Expr} {w : Width}
      {test first second : Code} :
    Lowers scope frame st cond test st₁ → Lowers scope frame st₁ whenTrue first st₂ →
      st₂.depth = st₁.depth → Lowers scope frame st₂ whenFalse second st₃ →
      st₃.depth = st₁.depth →
      Lowers scope frame st (.ifThenElse cond whenTrue whenFalse w)
        (test ++ [.cond (some w.kind) first second]) st₃
  | assign {st st' : LowerState} {i j : Nat} {value : Expr} {word : Code} :
    Lowers scope frame st value word st' → frame.localIndex i = .ok j →
      Lowers scope frame st (.assign i value) (word ++ [.localSet j, .unit]) st'
  | whileLoop {st st₁ st₂ : LowerState} {cond body : Expr} {test step : Code} :
    Lowers scope frame st cond test st₁ → Lowers scope frame st₁ body step st₂ →
      st₂.depth = st.depth →
      Lowers scope frame st (.whileLoop cond body)
        [.loop (test ++ [.cond none (step ++ [.drop, .br 1]) []]), .unit] st₂
  | ignore {st st' : LowerState} {operand : Expr} {word : Code} :
    Lowers scope frame st operand word st' →
      Lowers scope frame st (.ignore operand) (word ++ [.drop, .unit]) st'
  | empty {st : LowerState} : Lowers scope frame st (.sequence []) [.unit] st
  | last {st st' : LowerState} {e : Expr} {word : Code} :
    Lowers scope frame st e word st' → Lowers scope frame st (.sequence [e]) word st'
  | sequence {st st₁ st₂ : LowerState} {e next : Expr} {es : List Expr} {first rest : Code} :
    Lowers scope frame st e first st₁ →
      Lowers scope frame st₁ (.sequence (next :: es)) rest st₂ →
      Lowers scope frame st (.sequence (e :: next :: es)) (first ++ .drop :: rest) st₂
  | pushFrame {st : LowerState} :
    Lowers scope frame st .pushFrame
      (Highwater.read ++ [.localSet (frame.slot st.depth), .unit]) st.opened
  | popFrame {st : LowerState} {d : Nat} :
    st.depth = d + 1 →
      Lowers scope frame st .popFrame
        (.localGet (frame.slot d) :: Highwater.write frame.registers ++ [.unit])
        { st with depth := d }

/-- Lowering the arguments of a call succeeds with some code and takes one state to another. -/
inductive LowersArgs (scope : Scope) (frame : Frame) :
    LowerState → List Expr → Code → LowerState → Prop
  | nil {st : LowerState} : LowersArgs scope frame st [] [] st
  | cons {st st₁ st₂ : LowerState} {e : Expr} {es : List Expr} {first rest : Code} :
    Lowers scope frame st e first st₁ → LowersArgs scope frame st₁ es rest st₂ →
      LowersArgs scope frame st (e :: es) (first ++ rest) st₂

end

open Lower in
mutual

/-- **A lowering that succeeded has a derivation.** -/
theorem Lowers.of_lower {scope : Scope} {frame : Frame} :
    ∀ {e : Expr} {st st' : LowerState} {code : Code},
      e.lower scope frame st = .ok code st' → Lowers scope frame st e code st'
  | .var i, st, st', code, h => by
    simp only [Expr.lower, bind_eq_ok, ofExcept_eq_ok, pure_eq_ok] at h
    obtain ⟨j, _, ⟨hj, rfl⟩, rfl, rfl⟩ := h
    exact .var hj
  | .global name, st, st', code, h => by
    simp only [Expr.lower, bind_eq_ok, ofExcept_eq_ok, pure_eq_ok] at h
    obtain ⟨j, _, ⟨hj, rfl⟩, rfl, rfl⟩ := h
    exact .global hj
  | .literal w text, st, st', code, h => by
    simp only [Expr.lower, bind_eq_ok, ofExcept_eq_ok, pure_eq_ok] at h
    obtain ⟨v, _, ⟨hv, rfl⟩, rfl, rfl⟩ := h
    exact .literal hv
  | .string text, st, st', code, h => by
    simp only [Expr.lower, bind_eq_ok, pure_eq_ok] at h
    obtain ⟨o, mid, hi, rfl, rfl⟩ := h
    cases hi
    exact .string
  | .binary op w lhs rhs, st, st', code, h => by
    simp only [Expr.lower, bind_eq_ok, ofExcept_eq_ok, pure_eq_ok] at h
    obtain ⟨left, st₁, hl, right, st₂, hr, apply, _, ⟨ha, rfl⟩, rfl, rfl⟩ := h
    exact .binary (Lowers.of_lower hl) (Lowers.of_lower hr) ha
  | .call name args, st, st', code, h => by
    simp only [Expr.lower, bind_eq_ok, ofExcept_eq_ok, pure_eq_ok] at h
    obtain ⟨i, _, ⟨hi, rfl⟩, operands, _, ha, rfl, rfl⟩ := h
    exact .call hi (LowersArgs.of_lowerArgs ha)
  | .bufCreate size count, st, st', code, h => by
    simp only [Expr.lower, bind_eq_ok, pure_eq_ok] at h
    obtain ⟨number, _, hn, rfl, rfl⟩ := h
    exact .bufCreate (Lowers.of_lower hn)
  | .bufRead size base index, st, st', code, h => by
    simp only [Expr.lower, bind_eq_ok, ofExcept_eq_ok, pure_eq_ok] at h
    obtain ⟨start, st₁, hb, position, st₂, hi, load, _, ⟨hl, rfl⟩, rfl, rfl⟩ := h
    exact .bufRead (Lowers.of_lower hb) (Lowers.of_lower hi) hl
  | .bufWrite size base index value, st, st', code, h => by
    simp only [Expr.lower, bind_eq_ok, ofExcept_eq_ok, pure_eq_ok] at h
    obtain ⟨start, st₁, hb, position, st₂, hi, word, st₃, hv, store, _, ⟨hs, rfl⟩, rfl, rfl⟩ := h
    exact .bufWrite (Lowers.of_lower hb) (Lowers.of_lower hi) (Lowers.of_lower hv) hs
  | .bufSub size base index, st, st', code, h => by
    simp only [Expr.lower, bind_eq_ok, pure_eq_ok] at h
    obtain ⟨start, st₁, hb, position, st₂, hi, rfl, rfl⟩ := h
    exact .bufSub (Lowers.of_lower hb) (Lowers.of_lower hi)
  | .cast operand source target, st, st', code, h => by
    simp only [Expr.lower, bind_eq_ok, ofExcept_eq_ok, pure_eq_ok] at h
    obtain ⟨word, st₁, hw, convert, _, ⟨hc, rfl⟩, rfl, rfl⟩ := h
    exact .cast (Lowers.of_lower hw) hc
  | .ifThenElse cond whenTrue whenFalse w, st, st', code, h => by
    simp only [Expr.lower, bind_eq_ok, get_eq_ok, expectDepth_eq_ok, pure_eq_ok] at h
    obtain ⟨test, st₁, hc, _, _, ⟨rfl, rfl⟩, first, st₂, ht, _, _, ⟨hd, rfl⟩, second, st₃, hf, _, _,
      ⟨hd', rfl⟩, rfl, rfl⟩ := h
    exact .ifThenElse (Lowers.of_lower hc) (Lowers.of_lower ht) hd (Lowers.of_lower hf) hd'
  | .assign i value, st, st', code, h => by
    simp only [Expr.lower, bind_eq_ok, ofExcept_eq_ok, pure_eq_ok] at h
    obtain ⟨word, st₁, hv, j, _, ⟨hj, rfl⟩, rfl, rfl⟩ := h
    exact .assign (Lowers.of_lower hv) hj
  | .whileLoop cond body, st, st', code, h => by
    simp only [Expr.lower, bind_eq_ok, get_eq_ok, expectDepth_eq_ok, pure_eq_ok] at h
    obtain ⟨_, _, ⟨rfl, rfl⟩, test, st₁, hc, step, st₂, hb, _, _, ⟨hd, rfl⟩, rfl, rfl⟩ := h
    exact .whileLoop (Lowers.of_lower hc) (Lowers.of_lower hb) hd
  | .ignore operand, st, st', code, h => by
    simp only [Expr.lower, bind_eq_ok, pure_eq_ok] at h
    obtain ⟨word, _, hw, rfl, rfl⟩ := h
    exact .ignore (Lowers.of_lower hw)
  | .sequence items, st, st', code, h => by
    rw [Expr.lower] at h
    exact Lowers.of_lowerItems h
  | .pushFrame, st, st', code, h => by
    simp only [Expr.lower, bind_eq_ok, pure_eq_ok] at h
    obtain ⟨d, _, ho, rfl, rfl⟩ := h
    cases ho
    exact .pushFrame
  | .popFrame, st, st', code, h => by
    simp only [Expr.lower, bind_eq_ok, closeFrame_eq_ok, pure_eq_ok] at h
    obtain ⟨d, _, ⟨hd, rfl⟩, rfl, rfl⟩ := h
    exact .popFrame hd
  | .bufInit .., _, _, _, h | .bufBlit .., _, _, _, h | .bufFill .., _, _, _, h
  | .bufFree _, _, _, _, h | .abort _, _, _, _, h | .switch .., _, _, _, h => by
    rw [Expr.lower] at h
    · cases h
    all_goals simp

theorem LowersArgs.of_lowerArgs {scope : Scope} {frame : Frame} :
    ∀ {es : List Expr} {st st' : LowerState} {code : Code},
      Expr.lowerArgs scope frame es st = .ok code st' → LowersArgs scope frame st es code st'
  | [], st, st', code, h => by
    simp only [Expr.lowerArgs, pure_eq_ok] at h
    obtain ⟨rfl, rfl⟩ := h
    exact .nil
  | e :: es, st, st', code, h => by
    simp only [Expr.lowerArgs, bind_eq_ok, pure_eq_ok] at h
    obtain ⟨first, st₁, he, rest, st₂, hes, rfl, rfl⟩ := h
    exact .cons (Lowers.of_lower he) (LowersArgs.of_lowerArgs hes)

theorem Lowers.of_lowerItems {scope : Scope} {frame : Frame} :
    ∀ {es : List Expr} {st st' : LowerState} {code : Code},
      Expr.lowerItems scope frame es st = .ok code st' →
        Lowers scope frame st (.sequence es) code st'
  | [], st, st', code, h => by
    simp only [Expr.lowerItems, pure_eq_ok] at h
    obtain ⟨rfl, rfl⟩ := h
    exact .empty
  | [e], st, st', code, h => by
    rw [Expr.lowerItems] at h
    exact .last (Lowers.of_lower h)
  | e :: next :: es, st, st', code, h => by
    simp only [Expr.lowerItems, bind_eq_ok, pure_eq_ok] at h
    obtain ⟨first, st₁, he, rest, st₂, hes, rfl, rfl⟩ := h
    exact .sequence (Lowers.of_lower he) (Lowers.of_lowerItems hes)

end

open Lower in
mutual

/-- **What has a derivation is lowered as it says.** -/
theorem Lowers.lower {scope : Scope} {frame : Frame} :
    ∀ {st st' : LowerState} {e : Expr} {code : Code},
      Lowers scope frame st e code st' → e.lower scope frame st = .ok code st'
  | _, _, _, _, .var hj => by
    simp only [Expr.lower, bind_eq_ok, ofExcept_eq_ok, pure_eq_ok]
    exact ⟨_, _, ⟨hj, rfl⟩, rfl, rfl⟩
  | _, _, _, _, .global hi => by
    simp only [Expr.lower, bind_eq_ok, ofExcept_eq_ok, pure_eq_ok]
    exact ⟨_, _, ⟨hi, rfl⟩, rfl, rfl⟩
  | _, _, _, _, .literal hv => by
    simp only [Expr.lower, bind_eq_ok, ofExcept_eq_ok, pure_eq_ok]
    exact ⟨_, _, ⟨hv, rfl⟩, rfl, rfl⟩
  | _, _, _, _, .string => by
    rw [Expr.lower]
    rfl
  | _, _, _, _, .binary hl hr ha => by
    simp only [Expr.lower, bind_eq_ok, ofExcept_eq_ok, pure_eq_ok]
    exact ⟨_, _, hl.lower, _, _, hr.lower, _, _, ⟨ha, rfl⟩, rfl, rfl⟩
  | _, _, _, _, .call hi ha => by
    simp only [Expr.lower, bind_eq_ok, ofExcept_eq_ok, pure_eq_ok]
    exact ⟨_, _, ⟨hi, rfl⟩, _, _, ha.lower, rfl, rfl⟩
  | _, _, _, _, .bufCreate hn => by
    simp only [Expr.lower, bind_eq_ok, pure_eq_ok]
    exact ⟨_, _, hn.lower, rfl, rfl⟩
  | _, _, _, _, .bufRead hb hi hl => by
    simp only [Expr.lower, bind_eq_ok, ofExcept_eq_ok, pure_eq_ok]
    exact ⟨_, _, hb.lower, _, _, hi.lower, _, _, ⟨hl, rfl⟩, rfl, rfl⟩
  | _, _, _, _, .bufWrite hb hi hv hs => by
    simp only [Expr.lower, bind_eq_ok, ofExcept_eq_ok, pure_eq_ok]
    exact ⟨_, _, hb.lower, _, _, hi.lower, _, _, hv.lower, _, _, ⟨hs, rfl⟩, rfl, rfl⟩
  | _, _, _, _, .bufSub hb hi => by
    simp only [Expr.lower, bind_eq_ok, pure_eq_ok]
    exact ⟨_, _, hb.lower, _, _, hi.lower, rfl, rfl⟩
  | _, _, _, _, .cast hw hc => by
    simp only [Expr.lower, bind_eq_ok, ofExcept_eq_ok, pure_eq_ok]
    exact ⟨_, _, hw.lower, _, _, ⟨hc, rfl⟩, rfl, rfl⟩
  | _, _, _, _, .ifThenElse hc ht hd hf hd' => by
    simp only [Expr.lower, bind_eq_ok, get_eq_ok, expectDepth_eq_ok, pure_eq_ok]
    exact ⟨_, _, hc.lower, _, _, ⟨rfl, rfl⟩, _, _, ht.lower, (), _, ⟨hd, rfl⟩, _, _, hf.lower, (), _,
      ⟨hd', rfl⟩, rfl, rfl⟩
  | _, _, _, _, .assign hv hj => by
    simp only [Expr.lower, bind_eq_ok, ofExcept_eq_ok, pure_eq_ok]
    exact ⟨_, _, hv.lower, _, _, ⟨hj, rfl⟩, rfl, rfl⟩
  | _, _, _, _, .whileLoop hc hb hd => by
    simp only [Expr.lower, bind_eq_ok, get_eq_ok, expectDepth_eq_ok, pure_eq_ok]
    exact ⟨_, _, ⟨rfl, rfl⟩, _, _, hc.lower, _, _, hb.lower, (), _, ⟨hd, rfl⟩, rfl, rfl⟩
  | _, _, _, _, .ignore hw => by
    simp only [Expr.lower, bind_eq_ok, pure_eq_ok]
    exact ⟨_, _, hw.lower, rfl, rfl⟩
  | _, _, _, _, .empty => by
    rw [Expr.lower, Expr.lowerItems]
    rfl
  | _, _, _, _, .last he => by
    rw [Expr.lower, Expr.lowerItems]
    exact he.lower
  | _, _, _, _, .sequence he hs => by
    have hrest := hs.lower
    rw [Expr.lower] at hrest
    simp only [Expr.lower, Expr.lowerItems, bind_eq_ok, pure_eq_ok]
    exact ⟨_, _, he.lower, _, _, hrest, rfl, rfl⟩
  | _, _, _, _, .pushFrame => by
    rw [Expr.lower]
    rfl
  | _, _, _, _, .popFrame hd => by
    simp only [Expr.lower, bind_eq_ok, closeFrame_eq_ok, pure_eq_ok]
    exact ⟨_, _, ⟨hd, rfl⟩, rfl, rfl⟩

theorem LowersArgs.lower {scope : Scope} {frame : Frame} :
    ∀ {st st' : LowerState} {es : List Expr} {code : Code},
      LowersArgs scope frame st es code st' → Expr.lowerArgs scope frame es st = .ok code st'
  | _, _, _, _, .nil => by
    rw [Expr.lowerArgs]
    rfl
  | _, _, _, _, .cons he hes => by
    simp only [Expr.lowerArgs, bind_eq_ok, pure_eq_ok]
    exact ⟨_, _, he.lower, _, _, hes.lower, rfl, rfl⟩

end

/-! ## States -/

namespace StringTable

/-- **Placing a string keeps the strings before it.** -/
theorem strings_intern (t : StringTable) (s : String) : t.strings <+: (t.intern s).2.strings := by
  unfold intern
  split
  · exact List.prefix_refl _
  · exact (List.prefix_append _ _).map _

/-- **A placed string has the offset that it was given.** -/
theorem offset?_intern (t : StringTable) (s : String) : (t.intern s).2.offset? s = some (t.intern s).1 := by
  unfold intern
  split
  · rename_i o ho
    exact ho
  · exact List.lookup_cons_self

end StringTable

/-- **More strings move none of those before them.** -/
theorem Segment.offsetIn?_append {s : String} {ss : List String} {o : Nat} (h : offsetIn? s ss = some o)
    (more : List String) : offsetIn? s (ss ++ more) = some o := by
  induction ss generalizing o with
  | nil => cases h
  | cons t ts ih =>
    rw [offsetIn?] at h
    rw [List.cons_append, offsetIn?]
    split at h
    · rename_i ht
      rw [if_pos ht, h]
    · rename_i ht
      rw [if_neg ht]
      obtain ⟨p, hp, rfl⟩ := Option.map_eq_some_iff.1 h
      rw [ih hp, Option.map_some]

/-- **A string stays where it was placed** in every table that goes on with more strings. -/
theorem StringTable.Consistent.offset?_of_strings {t more : StringTable} (h : t.Consistent) (hmore : more.Consistent)
    (hstrings : t.strings <+: more.strings) {s : String} {o : UInt32} (ho : t.offset? s = some o) :
    more.offset? s = some o := by
  obtain ⟨rest, hrest⟩ := hstrings
  rw [h.offsets] at ho
  obtain ⟨p, hp, rfl⟩ := Option.map_eq_some_iff.1 ho
  rw [hmore.offsets, ← hrest, Segment.offsetIn?_append hp]
  rfl

namespace Segment

theorem strings_intern (seg : Segment) (s : String) : seg.strings <+: (seg.intern s).2.strings :=
  seg.table.strings_intern s

/-- **A string stays where it was placed,** however many strings follow. -/
theorem offset?_of_intern {seg more : Segment} {s : String}
    (h : (seg.intern s).2.strings <+: more.strings) : more.offset? s = some (seg.intern s).1 := by
  have hplaced := (seg.intern s).2.consistent.offset?_of_strings more.consistent h (seg.table.offset?_intern s)
  exact congrArg (Option.map UInt32.toNat) hplaced

end Segment

/-- A later state of the same lowering: strings and slots are only added. -/
structure LowerState.Grows (st st' : LowerState) : Prop where
  strings : st.segment.strings <+: st'.segment.strings
  slots : st.slots ≤ st'.slots

namespace LowerState.Grows

theorem refl (st : LowerState) : st.Grows st := ⟨List.prefix_refl _, Nat.le_refl _⟩

theorem trans {a b c : LowerState} (h : a.Grows b) (h' : b.Grows c) : a.Grows c :=
  ⟨h.strings.trans h'.strings, Nat.le_trans h.slots h'.slots⟩

theorem interned (st : LowerState) (s : String) : st.Grows (st.interned s) :=
  ⟨Segment.strings_intern .., Nat.le_refl _⟩

theorem opened (st : LowerState) : st.Grows st.opened :=
  ⟨List.prefix_refl _, Nat.le_max_left ..⟩

end LowerState.Grows

mutual

/-- **Lowering only adds strings and slots.** -/
theorem Lowers.grows {scope : Scope} {frame : Frame} :
    ∀ {st st' : LowerState} {e : Expr} {code : Code}, Lowers scope frame st e code st' → st.Grows st'
  | _, _, _, _, .var _ | _, _, _, _, .global _ | _, _, _, _, .literal _ | _, _, _, _, .empty =>
    .refl _
  | _, _, _, _, .string => .interned ..
  | _, _, _, _, .binary hl hr _ => hl.grows.trans hr.grows
  | _, _, _, _, .call _ ha => ha.grows
  | _, _, _, _, .bufCreate hc => hc.grows
  | _, _, _, _, .bufRead hb hi _ => hb.grows.trans hi.grows
  | _, _, _, _, .bufWrite hb hi hv _ => (hb.grows.trans hi.grows).trans hv.grows
  | _, _, _, _, .bufSub hb hi => hb.grows.trans hi.grows
  | _, _, _, _, .cast he _ => he.grows
  | _, _, _, _, .ifThenElse hc ht _ hf _ => (hc.grows.trans ht.grows).trans hf.grows
  | _, _, _, _, .assign hv _ => hv.grows
  | _, _, _, _, .whileLoop hc hb _ => hc.grows.trans hb.grows
  | _, _, _, _, .ignore he => he.grows
  | _, _, _, _, .last he => he.grows
  | _, _, _, _, .sequence he hs => he.grows.trans hs.grows
  | _, _, _, _, .pushFrame => .opened _
  | _, _, _, _, .popFrame _ => ⟨List.prefix_refl _, Nat.le_refl _⟩

theorem LowersArgs.grows {scope : Scope} {frame : Frame} :
    ∀ {st st' : LowerState} {es : List Expr} {code : Code}, LowersArgs scope frame st es code st' →
      st.Grows st'
  | _, _, _, _, .nil => .refl _
  | _, _, _, _, .cons he hes => he.grows.trans hes.grows

end

mutual

/-- **There are slots for all open frames.** -/
theorem Lowers.depth_le_slots {scope : Scope} {frame : Frame} :
    ∀ {st st' : LowerState} {e : Expr} {code : Code}, Lowers scope frame st e code st' →
      st.depth ≤ st.slots → st'.depth ≤ st'.slots
  | _, _, _, _, .var _, hd | _, _, _, _, .global _, hd | _, _, _, _, .literal _, hd
  | _, _, _, _, .empty, hd => hd
  | _, _, _, _, .string, hd => hd
  | _, _, _, _, .binary hl hr _, hd => hr.depth_le_slots (hl.depth_le_slots hd)
  | _, _, _, _, .call _ ha, hd => ha.depth_le_slots hd
  | _, _, _, _, .bufCreate hc, hd => hc.depth_le_slots hd
  | _, _, _, _, .bufRead hb hi _, hd => hi.depth_le_slots (hb.depth_le_slots hd)
  | _, _, _, _, .bufWrite hb hi hv _, hd =>
    hv.depth_le_slots (hi.depth_le_slots (hb.depth_le_slots hd))
  | _, _, _, _, .bufSub hb hi, hd => hi.depth_le_slots (hb.depth_le_slots hd)
  | _, _, _, _, .cast he _, hd => he.depth_le_slots hd
  | _, _, _, _, .ifThenElse hc ht _ hf _, hd =>
    hf.depth_le_slots (ht.depth_le_slots (hc.depth_le_slots hd))
  | _, _, _, _, .assign hv _, hd => hv.depth_le_slots hd
  | _, _, _, _, .whileLoop hc hb _, hd => hb.depth_le_slots (hc.depth_le_slots hd)
  | _, _, _, _, .ignore he, hd => he.depth_le_slots hd
  | _, _, _, _, .last he, hd => he.depth_le_slots hd
  | _, _, _, _, .sequence he hs, hd => hs.depth_le_slots (he.depth_le_slots hd)
  | _, _, _, _, .pushFrame, _ => Nat.le_max_right ..
  | _, _, _, _, .popFrame h, hd => by
    rw [h] at hd
    exact Nat.le_of_lt hd

theorem LowersArgs.depth_le_slots {scope : Scope} {frame : Frame} :
    ∀ {st st' : LowerState} {es : List Expr} {code : Code}, LowersArgs scope frame st es code st' →
      st.depth ≤ st.slots → st'.depth ≤ st'.slots
  | _, _, _, _, .nil, hd => hd
  | _, _, _, _, .cons he hes, hd => hes.depth_le_slots (he.depth_le_slots hd)

end

/-! ## Frames -/

namespace Expr

mutual

/-- How many more frames are open after an expression than before it.  The arms of a conditional, and a
loop, close what they open. -/
def shift : Expr → Int
  | binary _ _ lhs rhs => lhs.shift + rhs.shift
  | call _ args => shifts args
  | bufCreate _ count => count.shift
  | bufRead _ base index => base.shift + index.shift
  | bufWrite _ base index value => base.shift + index.shift + value.shift
  | bufSub _ base index => base.shift + index.shift
  | cast operand _ _ => operand.shift
  | ifThenElse cond _ _ _ => cond.shift
  | assign _ value => value.shift
  | ignore operand => operand.shift
  | sequence items => shifts items
  | pushFrame => 1
  | popFrame => -1
  | _ => 0

/-- How many more frames are open after expressions than before them. -/
def shifts : List Expr → Int
  | [] => 0
  | e :: es => e.shift + shifts es

end

mutual

/-- Whether the condition of every loop within an expression leaves as many frames open as it found. -/
def steady : Expr → Bool
  | binary _ _ lhs rhs => lhs.steady && rhs.steady
  | call _ args => allSteady args
  | bufCreate _ count => count.steady
  | bufRead _ base index => base.steady && index.steady
  | bufWrite _ base index value => base.steady && index.steady && value.steady
  | bufSub _ base index => base.steady && index.steady
  | cast operand _ _ => operand.steady
  | ifThenElse cond whenTrue whenFalse _ => cond.steady && whenTrue.steady && whenFalse.steady
  | assign _ value => value.steady
  | whileLoop cond body => cond.shift == 0 && cond.steady && body.steady
  | ignore operand => operand.steady
  | sequence items => allSteady items
  | _ => true

/-- Whether the condition of every loop within expressions leaves as many frames open as it found. -/
def allSteady : List Expr → Bool
  | [] => true
  | e :: es => e.steady && allSteady es

end

end Expr

mutual

/-- **The depth changes by the shift.** -/
theorem Lowers.depth_eq {scope : Scope} {frame : Frame} :
    ∀ {st st' : LowerState} {e : Expr} {code : Code}, Lowers scope frame st e code st' →
      (st'.depth : Int) = st.depth + e.shift
  | _, _, _, _, .var _ | _, _, _, _, .global _ | _, _, _, _, .literal _ | _, _, _, _, .string
  | _, _, _, _, .empty => by
    simp [Expr.shift, Expr.shifts, LowerState.interned]
  | _, _, _, _, .binary hl hr _ => by
    rw [Expr.shift, hr.depth_eq, hl.depth_eq]
    omega
  | _, _, _, _, .call _ ha => by rw [Expr.shift, ha.depth_eq]
  | _, _, _, _, .bufCreate hc => by rw [Expr.shift, hc.depth_eq]
  | _, _, _, _, .bufRead hb hi _ => by
    rw [Expr.shift, hi.depth_eq, hb.depth_eq]
    omega
  | _, _, _, _, .bufWrite hb hi hv _ => by
    rw [Expr.shift, hv.depth_eq, hi.depth_eq, hb.depth_eq]
    omega
  | _, _, _, _, .bufSub hb hi => by
    rw [Expr.shift, hi.depth_eq, hb.depth_eq]
    omega
  | _, _, _, _, .cast he _ => by rw [Expr.shift, he.depth_eq]
  | _, _, _, _, .ifThenElse hc _ _ _ hd => by rw [Expr.shift, hd, hc.depth_eq]
  | _, _, _, _, .assign hv _ => by rw [Expr.shift, hv.depth_eq]
  | _, _, _, _, .whileLoop _ _ hd => by simp [Expr.shift, hd]
  | _, _, _, _, .ignore he => by rw [Expr.shift, he.depth_eq]
  | _, _, _, _, .last he => by
    rw [Expr.shift, Expr.shifts, Expr.shifts, he.depth_eq]
    omega
  | _, _, _, _, .sequence he hs => by
    have h := hs.depth_eq
    rw [Expr.shift] at h
    rw [Expr.shift, Expr.shifts, h, he.depth_eq]
    omega
  | _, _, _, _, .pushFrame => by simp [Expr.shift, LowerState.opened]
  | _, _, _, _, .popFrame hd => by
    simp only [Expr.shift, hd]
    omega

theorem LowersArgs.depth_eq {scope : Scope} {frame : Frame} :
    ∀ {st st' : LowerState} {es : List Expr} {code : Code}, LowersArgs scope frame st es code st' →
      (st'.depth : Int) = st.depth + Expr.shifts es
  | _, _, _, _, .nil => by simp [Expr.shifts]
  | _, _, _, _, .cons he hes => by
    rw [Expr.shifts, hes.depth_eq, he.depth_eq]
    omega

end

end WasmLowering
