/-
# Emitted code leaves trails

Every run of an expression's code that comes to its end is the watched run of the
expression and leaves a trail (`Lowers.steps`).

The terms on which a run is watched are kept by the expression if they are kept by
its operands, each with the frames that are open before it (`Expr.operands`), and

| term       | of which construct | what is asked                                       |
|------------|--------------------|-----------------------------------------------------|
| `strict`   | a loop             | its condition leaves as many frames open as before  |
| `strict`   | a new buffer       | a frame is open after its count                     |
| `kinded`   | every one          | its operands are of the kinds it takes              |
-/

import WasmLowering.Proofs.Trails

namespace WasmLowering

open Wasm

/-! ## Expressions -/

namespace Expr

mutual

/-- Whether every buffer within an expression is made while a frame is open, if so many are open before the
expression.  The frames that count are those that are open once the count of the buffer is computed. -/
def framed : Expr → (depth : Nat) → Bool
  | binary _ _ lhs rhs, d => lhs.framed d && rhs.framed (lhs.after d)
  | call _ args, d => allFramed args d
  | bufCreate _ count, d => count.framed d && 0 < count.after d
  | bufRead _ base index, d => base.framed d && index.framed (base.after d)
  | bufWrite _ base index value, d =>
    base.framed d && index.framed (base.after d) && value.framed (index.after (base.after d))
  | bufSub _ base index, d => base.framed d && index.framed (base.after d)
  | cast operand _ _, d => operand.framed d
  | ifThenElse cond whenTrue whenFalse _, d =>
    cond.framed d && whenTrue.framed (cond.after d) && whenFalse.framed (cond.after d)
  | assign _ value, d => value.framed d
  | whileLoop cond body, d => cond.framed d && body.framed (cond.after d)
  | ignore operand, d => operand.framed d
  | sequence items, d => allFramed items d
  | _, _ => true

/-- Whether every buffer within expressions is made while a frame is open. -/
def allFramed : List Expr → (depth : Nat) → Bool
  | [], _ => true
  | e :: es, d => e.framed d && allFramed es (e.after d)

end

/-- Expressions that are run one after the other, each with the number of frames that are open before it. -/
def places : List Expr → (depth : Nat) → List (Expr × Nat)
  | [], _ => []
  | e :: es, d => (e, d) :: places es (e.after d)

/-- The operands of an expression, each with the number of frames that are open before it. -/
def operands : Expr → (depth : Nat) → List (Expr × Nat)
  | binary _ _ lhs rhs, d => places [lhs, rhs] d
  | call _ args, d => places args d
  | bufCreate _ count, d => places [count] d
  | bufRead _ base index, d => places [base, index] d
  | bufWrite _ base index value, d => places [base, index, value] d
  | bufSub _ base index, d => places [base, index] d
  | cast operand _ _, d => places [operand] d
  | ifThenElse cond whenTrue whenFalse _, d =>
    [(cond, d), (whenTrue, cond.after d), (whenFalse, cond.after d)]
  | assign _ value, d => places [value] d
  | whileLoop cond body, d => places [cond, body] d
  | ignore operand, d => places [operand] d
  | sequence items, d => places items d
  | _, _ => []

/-- **The frames that are open after an expression** are those that its lowering leaves open. -/
theorem after_eq {scope : Scope} {frame : Frame} {st st' : LowerState} {e : Expr} {code : Code}
    (h : Lowers scope frame st e code st') : e.after st.depth = st'.depth := by
  unfold after
  have hdepth := h.depth_eq
  omega

/-- **Among steady expressions each is steady.** -/
theorem steady_of_places {es : List Expr} {d : Nat} (h : allSteady es = true) :
    ∀ p ∈ places es d, p.1.steady = true := by
  induction es generalizing d with
  | nil => exact fun p hp => nomatch hp
  | cons e es ih =>
    rw [allSteady, Bool.and_eq_true] at h
    exact List.forall_mem_cons.2 ⟨h.1, ih h.2⟩

/-- **The operands of a steady expression are steady.** -/
theorem steady_of_operands {e : Expr} {d : Nat} (h : e.steady = true) :
    ∀ p ∈ e.operands d, p.1.steady = true := by
  cases e with
  | call name args => exact steady_of_places h
  | sequence items => exact steady_of_places h
  | _ => simp_all [steady, operands, places]

/-- **Among framed expressions each is framed.** -/
theorem framed_of_places {es : List Expr} {d : Nat} (h : allFramed es d = true) :
    ∀ p ∈ places es d, p.1.framed p.2 = true := by
  induction es generalizing d with
  | nil => exact fun p hp => nomatch hp
  | cons e es ih =>
    rw [allFramed, Bool.and_eq_true] at h
    exact List.forall_mem_cons.2 ⟨h.1, ih h.2⟩

/-- **The operands of a framed expression are framed.** -/
theorem framed_of_operands {e : Expr} {d : Nat} (h : e.framed d = true) :
    ∀ p ∈ e.operands d, p.1.framed p.2 = true := by
  cases e with
  | call name args => exact framed_of_places h
  | sequence items => exact framed_of_places h
  | _ => simp_all [framed, operands, places]

section Kinds

variable {spaces : IndexSpaces} {scope : Scope} {vars : List Kind}

/-- **Among well-kinded expressions each is well-kinded.** -/
theorem kinded_of_places {es : List Expr} {ks : List Kind} {d : Nat}
    (h : HaveKinds spaces scope vars es ks) :
    ∀ p ∈ places es d, ∃ k, HasKind spaces scope vars p.1 k := by
  induction es generalizing ks d with
  | nil => exact fun p hp => nomatch hp
  | cons e es ih =>
    cases h with
    | cons he hes => exact List.forall_mem_cons.2 ⟨⟨_, he⟩, ih hes⟩

/-- **The items of a well-kinded sequence are well-kinded.** -/
theorem kinded_of_items {es : List Expr} {k : Kind} {d : Nat}
    (h : HasKind spaces scope vars (.sequence es) k) :
    ∀ p ∈ places es d, ∃ k, HasKind spaces scope vars p.1 k := by
  induction es generalizing k d with
  | nil => exact fun p hp => nomatch hp
  | cons e es ih =>
    cases h with
    | last he => exact List.forall_mem_cons.2 ⟨⟨_, he⟩, fun p hp => nomatch hp⟩
    | sequence he hes => exact List.forall_mem_cons.2 ⟨⟨_, he⟩, ih hes⟩

/-- **The operands of a well-kinded expression are well-kinded.** -/
theorem kinded_of_operands {e : Expr} {k : Kind} {d : Nat} (h : HasKind spaces scope vars e k) :
    ∀ p ∈ e.operands d, ∃ k, HasKind spaces scope vars p.1 k := by
  cases h with
  | call _ _ hargs _ => exact kinded_of_places hargs
  | callVoid _ _ hargs _ => exact kinded_of_places hargs
  | empty => exact fun p hp => nomatch hp
  | last he => exact kinded_of_items (.last he)
  | sequence he hes => exact kinded_of_items (.sequence he hes)
  | var | global | literal | string | pushFrame | popFrame => exact fun p hp => nomatch hp
  | bufCreate h | cast h | assign _ h | ignore h =>
    simp only [operands, places, List.forall_mem_singleton]
    exact ⟨_, h⟩
  | binary h h' | bufRead h h' | bufSub h h' | whileLoop h h' =>
    simp only [operands, places, List.forall_mem_cons]
    exact ⟨⟨_, h⟩, ⟨_, h'⟩, fun p hp => nomatch hp⟩
  | bufWrite h h' h'' | ifThenElse h h' h'' =>
    simp only [operands, places, List.forall_mem_cons]
    exact ⟨⟨_, h⟩, ⟨_, h'⟩, ⟨_, h''⟩, fun p hp => nomatch hp⟩

end Kinds

end Expr

/-- An expression keeps the terms on which it is watched. -/
structure Expr.Meets {spaces : IndexSpaces} (t : Terms spaces) (scope : Scope) (vars : List Kind) (d : Nat)
    (e : Expr) : Prop where
  steady : t.strict → e.steady = true
  framed : t.strict → e.framed d = true
  kinded : t.kinded → ∃ k, HasKind spaces scope vars e k

section Expressions

variable {spaces : IndexSpaces} {t : Terms spaces} {scope : Scope} {vars : List Kind} {slots : Nat}

namespace Expr.Meets

variable {d : Nat} {e : Expr}

/-- **The operands of an expression keep the terms that it keeps.** -/
theorem operand (h : Meets t scope vars d e) {p : Expr × Nat} (hp : p ∈ e.operands d) :
    Meets t scope vars p.2 p.1 where
  steady hs := steady_of_operands (h.steady hs) p hp
  framed hs := framed_of_operands (h.framed hs) p hp
  kinded hk := by
    obtain ⟨k, hkind⟩ := h.kinded hk
    exact kinded_of_operands hkind p hp

/-- **The rest of a sequence keeps the terms that the sequence keeps.** -/
theorem rest {next : Expr} {es : List Expr} (h : Meets t scope vars d (.sequence (e :: next :: es))) :
    Meets t scope vars (e.after d) (.sequence (next :: es)) where
  steady hs := by
    have hall := h.steady hs
    rw [Expr.steady, allSteady, Bool.and_eq_true] at hall
    exact hall.2
  framed hs := by
    have hall := h.framed hs
    rw [Expr.framed, allFramed, Bool.and_eq_true] at hall
    exact hall.2
  kinded hk := by
    obtain ⟨_, hkind⟩ := h.kinded hk
    cases hkind with
    | sequence _ hrest => exact ⟨_, hrest⟩

end Expr.Meets

/-- The locals of a machine have their kinds, if kinds are kept. -/
def Terms.Ready (t : Terms spaces) (m : Machine) : Prop := t.kinded → m.locals.map Value.kind = t.locals

/-- **Code that changes no locals** keeps their kinds. -/
theorem Terms.Ready.of_exec {code : Code} {m m' : Machine} (hm : t.Ready m) (hcode : code.isSilent 0 = true)
    (hrun : Code.exec t.inst t.fuel code m = .next m') : t.Ready m' := by
  have hlocals : m'.locals = m.locals :=
    List.ext_getElem? fun i => (Code.still_of_exec t.inst hcode hrun).locals i (Nat.zero_le i)
  intro hk
  rw [hlocals, hm hk]

variable (hfit : t.kinded → spaces.Fit scope) (hl : t.kinded → t.frame.Kinds vars slots t.locals)

include hfit hl in
/-- **The locals keep their kinds,** and a word is left above those that were there. -/
theorem Lowers.ready {st st' : LowerState} {e : Expr} {code : Code} {m m' : Machine}
    (h : Lowers scope t.frame st e code st') (hmeets : e.Meets t scope vars st.depth)
    (hd : st.depth ≤ st.slots) (hs : st'.slots ≤ slots) (hm : t.Ready m)
    (hrun : Code.exec t.inst t.fuel code m = .next m') :
    t.Ready m' ∧ (t.kinded → ∃ v, m'.stack = v :: m.stack) := by
  constructor
  · intro hk
    obtain ⟨k, hkind⟩ := hmeets.kinded hk
    exact (h.stack_of_exec t.inst (hfit hk) (hl hk) hkind hd hs (hm hk) hrun).1
  · intro hk
    obtain ⟨k, hkind⟩ := hmeets.kinded hk
    obtain ⟨-, v, -, hv⟩ := h.stack_of_exec t.inst (hfit hk) (hl hk) hkind hd hs (hm hk) hrun
    exact ⟨v, hv⟩

omit hfit hl in
/-- **What comes behind an expression** keeps the terms with the frames that its lowering leaves open. -/
theorem Lowers.meets {st st' : LowerState} {e next : Expr} {code : Code}
    (h : Lowers scope t.frame st e code st') (hnext : next.Meets t scope vars (e.after st.depth)) :
    next.Meets t scope vars st'.depth := by
  rwa [Expr.after_eq h] at hnext

include hfit hl in
/-- **Code behind that of an expression** starts on locals of the same kinds. -/
theorem Lowers.andThen {st st' : LowerState} {e : Expr} {code next : Code} {m : Machine} {d : Nat}
    {first second : Run} (h : Lowers scope t.frame st e code st') (hmeets : e.Meets t scope vars st.depth)
    (hd : st.depth ≤ st.slots) (hs : st'.slots ≤ slots) (hm : t.Ready m)
    (hfirst : Steps t code st.depth st'.depth first m)
    (hsecond : ∀ m₁, t.Ready m₁ → Steps t next st'.depth d second m₁) :
    Steps t (code ++ next) st.depth d (first.seq second) m :=
  hfirst.seq fun m₁ hrun => hsecond m₁ (h.ready hfit hl hmeets hd hs hm hrun).1

variable {segment : Segment}

mutual

/-- **Every run of an expression's code that comes to its end is its watched run,** and leaves a trail. -/
theorem Lowers.steps (hfit : t.kinded → spaces.Fit scope) (hl : t.kinded → t.frame.Kinds vars slots t.locals) :
    ∀ {st st' : LowerState} {e : Expr} {code : Code}, Lowers scope t.frame st e code st' →
      e.Meets t scope vars st.depth → st.depth ≤ st.slots → st'.Grows ⟨segment, 0, slots⟩ →
      ∀ m : Machine, t.Ready m →
        Steps t code st.depth st'.depth (e.watch ⟨scope, segment, t.inst⟩ t.frame t.fuel st.depth) m
  | _, _, _, _, .var hj, _, _, _, m, _ => by
    rw [Expr.watch]
    exact .selected (by rw [hj]; rfl) rfl
  | _, _, _, _, .global hi, _, _, _, m, _ => by
    rw [Expr.watch]
    exact .selected (by rw [hi]; rfl) rfl
  | _, _, _, _, .literal hv, _, _, _, m, _ => by
    rw [Expr.watch]
    exact .selected (by rw [hv]; rfl) rfl
  | _, _, _, _, .string, _, _, hroom, m, _ => by
    rw [Expr.watch, Segment.offset?_of_intern hroom.strings]
    exact .silent rfl
  | _, _, _, _, .binary hlhs hrhs ha, hmeets, hd, hroom, m, hm => by
    have hleft := hmeets.operand (.head _)
    have hright := hlhs.meets (hmeets.operand (.tail _ (.head _)))
    have hroom₁ := hrhs.grows.trans hroom
    have hboth := hlhs.andThen hfit hl hleft hd hroom₁.slots hm (hlhs.steps hfit hl hleft hd hroom₁ m hm)
      (hrhs.steps hfit hl hright (hlhs.depth_le_slots hd) hroom)
    rw [Expr.watch, Expr.after_eq hlhs]
    exact hboth.seq fun _ _ => .selected ha (Code.isSilent_of_onKinds _ (Operator.onKinds_lower ha))
  | _, _, _, _, .call (i := i) hi hargs, hmeets, hd, hroom, m, hm => by
    have hall : ∀ p ∈ Expr.places _ _, p.1.Meets t scope vars p.2 := fun p hp => hmeets.operand hp
    rw [Expr.watch]
    simp only [hi]
    refine (hargs.steps hfit hl hall hd hroom m hm).seq fun m₁ _ => ?_
    refine Steps.seq (a := [.call i]) (.call i) fun m₂ _ => .silent ?_
    cases scope.hasResult i <;> rfl
  | _, _, _, _, .bufCreate hcount, hmeets, hd, hroom, m, hm => by
    have hoperand := hmeets.operand (.head _)
    have hm' : ∀ w, t.Ready { m with stack := .i32 w :: m.stack } := fun _ => hm
    rw [Expr.watch]
    refine .create (fun w => hcount.steps hfit hl hoperand hd hroom _ (hm' w)) (fun hs => ?_) fun hk w m₁ hrun => ?_
    · have hframed := hmeets.framed hs
      rw [Expr.framed, Bool.and_eq_true, Expr.after_eq hcount] at hframed
      exact of_decide_eq_true hframed.2
    · exact (hcount.ready hfit hl hoperand hd hroom.slots (hm' w) hrun).2 hk
  | _, _, _, _, .bufRead hbase hindex hload, hmeets, hd, hroom, m, hm => by
    have hfirst := hmeets.operand (.head _)
    have hsecond := hbase.meets (hmeets.operand (.tail _ (.head _)))
    have hroom₁ := hindex.grows.trans hroom
    have hboth := hbase.andThen hfit hl hfirst hd hroom₁.slots hm (hbase.steps hfit hl hfirst hd hroom₁ m hm)
      (hindex.steps hfit hl hsecond (hbase.depth_le_slots hd) hroom)
    rw [Expr.watch, Expr.after_eq hbase]
    refine (hboth.seq fun _ _ => .silent rfl).seq fun _ _ => .selected (by rw [hload]; rfl) ?_
    obtain ⟨op, arg, rfl, -⟩ := loadElement_eq_ok hload
    rfl
  | _, _, _, _, .bufWrite hbase hindex hvalue hstore, hmeets, hd, hroom, m, hm => by
    have hfirst := hmeets.operand (.head _)
    have hsecond := hbase.meets (hmeets.operand (.tail _ (.head _)))
    have hthird := hmeets.operand (.tail _ (.tail _ (.head _)))
    dsimp only at hthird
    rw [Expr.after_eq hbase, Expr.after_eq hindex] at hthird
    have hd₁ := hbase.depth_le_slots hd
    have hroom₂ := hvalue.grows.trans hroom
    have hroom₁ := hindex.grows.trans hroom₂
    have hboth := hbase.andThen hfit hl hfirst hd hroom₁.slots hm (hbase.steps hfit hl hfirst hd hroom₁ m hm)
      (hindex.steps hfit hl hsecond hd₁ hroom₂)
    rw [Expr.watch]
    simp only [hstore, Expr.after_eq hbase, Expr.after_eq hindex]
    refine ((hboth.seq fun _ _ => .silent rfl).seq fun m₃ hrun => ?_).seq fun _ _ =>
      (Steps.store hstore).seq fun _ _ => .silent rfl
    -- the address is computed on words alone, so the locals are still of their kinds
    obtain ⟨m₂, hpair, haddress⟩ := (Code.exec_append_eq_next t.inst).1 hrun
    obtain ⟨m₁, hrun₁, hrun₂⟩ := (Code.exec_append_eq_next t.inst).1 hpair
    have hm₁ := (hbase.ready hfit hl hfirst hd hroom₁.slots hm hrun₁).1
    have hm₂ := (hindex.ready hfit hl hsecond hd₁ hroom₂.slots hm₁ hrun₂).1
    exact hvalue.steps hfit hl hthird (hindex.depth_le_slots hd₁) hroom m₃ (hm₂.of_exec rfl haddress)
  | _, _, _, _, .bufSub hbase hindex, hmeets, hd, hroom, m, hm => by
    have hfirst := hmeets.operand (.head _)
    have hsecond := hbase.meets (hmeets.operand (.tail _ (.head _)))
    have hroom₁ := hindex.grows.trans hroom
    have hboth := hbase.andThen hfit hl hfirst hd hroom₁.slots hm (hbase.steps hfit hl hfirst hd hroom₁ m hm)
      (hindex.steps hfit hl hsecond (hbase.depth_le_slots hd) hroom)
    rw [Expr.watch, Expr.after_eq hbase]
    exact hboth.seq fun _ _ => .silent rfl
  | _, _, _, _, .cast he hc, hmeets, hd, hroom, m, hm => by
    rw [Expr.watch]
    exact (he.steps hfit hl (hmeets.operand (.head _)) hd hroom m hm).seq fun _ _ =>
      .selected hc (Code.isSilent_of_onKinds _ (Width.onKinds_castTo hc))
  | _, _, _, _, .ifThenElse hcond htrue hd₂ hfalse hd₃, hmeets, hd, hroom, m, hm => by
    have hfirst := hmeets.operand (.head _)
    have hsecond := hcond.meets (hmeets.operand (.tail _ (.head _)))
    have hthird := hcond.meets (hmeets.operand (.tail _ (.tail _ (.head _))))
    have hd₁ := hcond.depth_le_slots hd
    have hroom₂ := hfalse.grows.trans hroom
    have hroom₁ := htrue.grows.trans hroom₂
    rw [← hd₂] at hthird
    rw [Expr.watch, Expr.after_eq hcond, hd₃]
    refine hcond.andThen hfit hl hfirst hd hroom₁.slots hm (hcond.steps hfit hl hfirst hd hroom₁ m hm)
      fun m₁ hm₁ => .choose ?_ ?_
    · have harm := htrue.steps hfit hl hsecond hd₁ hroom₂ { m₁ with stack := [] } hm₁
      rwa [hd₂] at harm
    · have harm := hfalse.steps hfit hl hthird (htrue.depth_le_slots hd₁) hroom { m₁ with stack := [] } hm₁
      rwa [hd₂, hd₃] at harm
  | _, _, _, _, .assign hvalue hj, hmeets, hd, hroom, m, hm => by
    rw [Expr.watch]
    refine (hvalue.steps hfit hl (hmeets.operand (.head _)) hd hroom m hm).seq fun _ _ =>
      .selected (by rw [hj]; rfl) ?_
    have hslot := Frame.localIndex_lt_slot hj 0
    simp [Code.isSilent, Plain.isSilent, hslot]
  | _, _, _, _, .whileLoop hcond hbody hd₂, hmeets, hd, hroom, m, hm => by
    have hfirst := hmeets.operand (.head _)
    have hsecond := hcond.meets (hmeets.operand (.tail _ (.head _)))
    have hd₁ := hcond.depth_le_slots hd
    have hroom₁ := hbody.grows.trans hroom
    rw [Expr.watch, Expr.after_eq hcond, hd₂]
    refine Steps.seq (a := [.loop _]) (.loop (hcond.steps hfit hl hfirst hd hroom₁) (fun m₁ hm₁ => ?_)
      (fun _ _ hm₁ => hm₁) (fun _ _ hm₁ => ?_) (fun _ _ hm₁ hrun => ?_) (fun hs => ?_) hm)
      fun _ _ => .silent rfl
    · have hstep := hbody.steps hfit hl hsecond hd₁ hroom m₁ hm₁
      rwa [hd₂] at hstep
    · exact fun hrun => (hcond.ready hfit hl hfirst hd hroom₁.slots hm₁ hrun).1
    · obtain ⟨m₂, hrun₂, hdrop⟩ := (Code.exec_append_eq_next t.inst).1 hrun
      exact (hbody.ready hfit hl hsecond hd₁ hroom.slots hm₁ hrun₂).1.of_exec rfl hdrop
    · have hsteady := hmeets.steady hs
      simp only [Expr.steady, Bool.and_eq_true, beq_iff_eq] at hsteady
      have hdepth := hcond.depth_eq
      omega
  | _, _, _, _, .ignore he, hmeets, hd, hroom, m, hm => by
    rw [Expr.watch]
    exact (he.steps hfit hl (hmeets.operand (.head _)) hd hroom m hm).seq fun _ _ => .silent rfl
  | _, _, _, _, .empty, _, _, _, m, _ => by
    rw [Expr.watch, Expr.watchItems]
    exact .silent rfl
  | _, _, _, _, .last he, hmeets, hd, hroom, m, hm => by
    rw [Expr.watch, Expr.watchItems]
    exact he.steps hfit hl (hmeets.operand (.head _)) hd hroom m hm
  | _, _, _, _, .sequence he hes, hmeets, hd, hroom, m, hm => by
    have hfirst := hmeets.operand (.head _)
    have hrest := he.meets hmeets.rest
    have hroom₁ := hes.grows.trans hroom
    have hitems := hes.steps hfit hl hrest (he.depth_le_slots hd) hroom
    rw [Expr.watch] at hitems
    rw [Expr.watch, Expr.watchItems, Expr.after_eq he]
    · refine he.andThen hfit hl hfirst hd hroom₁.slots hm (he.steps hfit hl hfirst hd hroom₁ m hm)
        fun m₁ hm₁ => ?_
      exact Steps.seq (a := [.drop]) (.silent rfl) fun m₂ hdrop => hitems m₂ (hm₁.of_exec rfl hdrop)
    · exact nofun
  | _, _, _, _, .pushFrame, _, _, _, m, _ => by
    rw [Expr.watch]
    exact .openFrame
  | _, _, _, _, .popFrame hd', _, _, _, m, _ => by
    rw [Expr.watch, hd']
    exact .closeFrame

theorem LowersArgs.steps (hfit : t.kinded → spaces.Fit scope)
    (hl : t.kinded → t.frame.Kinds vars slots t.locals) :
    ∀ {st st' : LowerState} {es : List Expr} {code : Code}, LowersArgs scope t.frame st es code st' →
      (∀ p ∈ Expr.places es st.depth, p.1.Meets t scope vars p.2) → st.depth ≤ st.slots →
      st'.Grows ⟨segment, 0, slots⟩ → ∀ m : Machine, t.Ready m →
        Steps t code st.depth st'.depth (Expr.watchArgs ⟨scope, segment, t.inst⟩ t.frame t.fuel es st.depth) m
  | _, _, _, _, .nil, _, _, _, m, _ => by
    rw [Expr.watchArgs]
    exact .silent rfl
  | _, _, _, _, .cons he hes, hmeets, hd, hroom, m, hm => by
    obtain ⟨hfirst, hrest⟩ := List.forall_mem_cons.1 hmeets
    have hroom₁ := hes.grows.trans hroom
    rw [Expr.watchArgs]
    rw [Expr.after_eq he] at hrest ⊢
    exact he.andThen hfit hl hfirst hd hroom₁.slots hm (he.steps hfit hl hfirst hd hroom₁ m hm)
      (hes.steps hfit hl hrest (he.depth_le_slots hd) hroom)

end

end Expressions

end WasmLowering
