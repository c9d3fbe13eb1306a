/-
# What faults say of their place

A report may blame the compiler, and it may name a unit and a function.  What it
says there follows from where its fault was raised:

| raised where                          | blames the compiler | names a unit | names a function |
|---------------------------------------|---------------------|--------------|------------------|
| imports of a scope                    | always              | the unit     | none             |
| the number of types of a unit         | always              | the unit     | none             |
| declarations of a scope               | never               | the unit     | none             |
| code, initializers and exports        | never               | none         | none             |
| the results and frames of a function  | never               | none         | the function     |

The first two lines have the four faults that say that a link state or a scope is
not what the compiler keeps it to be.  The places that wrap a fault keep its kind, and note the
function or the unit where nothing nearer to the cause has noted one.
-/

import WasmLowering.Assembly

namespace WasmLowering

open Wasm

namespace Fault

/-- Whether a fault is an error of the compiler, not of what it compiles. -/
def Internal (f : Fault) : Prop := f.diagnostic.kind = .compiler

instance (f : Fault) : Decidable f.Internal := inferInstanceAs (Decidable (_ = _))

/-- A fault that is no error of the compiler and that names this unit and this function, if any. -/
structure Located (unit function : Option String) (f : Fault) : Prop where
  kind : ¬ f.Internal
  unit : f.diagnostic.notes .unit = unit
  function : f.diagnostic.notes .function = function

/-- A fault that names no place. -/
abbrev Placeless (f : Fault) : Prop := f.Located none none

/-- A fault that is met while a function is lowered: it names no unit, and no other function. -/
def OfFunction (name : String) (f : Fault) : Prop := f.Placeless ∨ f.Located none (some name)

end Fault

namespace Diagnostic

variable (d : Diagnostic) (key : NoteKey) (text : String)

theorem kind_noteIfAbsent : (d.noteIfAbsent key text).kind = d.kind := by
  unfold noteIfAbsent
  split <;> rfl

theorem message_noteIfAbsent : (d.noteIfAbsent key text).message = d.message := by
  unfold noteIfAbsent
  split <;> rfl

theorem noteIfAbsent_notes_of_ne {k : NoteKey} (h : k ≠ key) : (d.noteIfAbsent key text).notes k = d.notes k := by
  unfold noteIfAbsent
  split
  · rfl
  · exact d.note_notes_of_ne text h

end Diagnostic

namespace Fault.Located

variable {unit function : Option String} {name : String} {f : Fault}

/-- **The initializer that a fault was met in** does not change its place. -/
theorem inInitializer (h : f.Located unit function) : (inInitializer name f).Located unit function :=
  ⟨h.kind, h.unit, h.function⟩

/-- **The function that a fault was met in** is named, unless there is a nearer one. -/
theorem inFunction (h : f.Located unit function) :
    (inFunction name f).Located unit (some (function.getD name)) where
  kind := by
    rw [Internal, diagnostic, Diagnostic.kind_noteIfAbsent]
    exact h.kind
  unit := by
    rw [diagnostic, Diagnostic.noteIfAbsent_notes_of_ne _ _ _ (by decide), h.unit]
  function := by
    rw [diagnostic, Diagnostic.noteIfAbsent_notes_self, h.function]

/-- **The unit that a fault was met in** is named, unless there is a nearer one. -/
theorem inUnit (h : f.Located unit function) : (inUnit name f).Located (some (unit.getD name)) function where
  kind := by
    rw [Internal, diagnostic, Diagnostic.kind_noteIfAbsent]
    exact h.kind
  unit := by
    rw [diagnostic, Diagnostic.noteIfAbsent_notes_self, h.unit]
  function := by
    rw [diagnostic, Diagnostic.noteIfAbsent_notes_of_ne _ _ _ (by decide), h.function]

end Fault.Located

/-- **The function that a fault is of** is the one that is named behind it. -/
theorem Fault.OfFunction.inFunction {name : String} {f : Fault} (h : f.OfFunction name) :
    (Fault.inFunction name f).Located none (some name) := by
  rcases h with h | h
  · exact h.inFunction
  · exact h.inFunction

/-! ## Computations -/

/-- Every fault that a computation raises has a property. -/
def Raises (P : Fault → Prop) {α : Type} (x : Except Fault α) : Prop := ∀ f, x = .error f → P f

namespace Raises

variable {P Q : Fault → Prop} {α β : Type}

/-- **A result that is there is no fault.** -/
theorem ok (a : α) : Raises P (.ok a) := nofun

theorem error {f : Fault} (h : P f) : Raises P (.error f : Except Fault α) := by
  rintro _ ⟨⟩
  exact h

theorem mono {x : Except Fault α} (hx : Raises P x) (h : ∀ f, P f → Q f) : Raises Q x :=
  fun f hf => h f (hx f hf)

/-- **A computation in two parts** raises what its parts do, the second one on the result of the first. -/
theorem bind_of_ok {x : Except Fault α} {f : α → Except Fault β} (hx : Raises P x)
    (hf : ∀ a, x = .ok a → Raises P (f a)) : Raises P (x >>= f) := by
  cases x with
  | ok a => exact hf a rfl
  | error e => exact error (hx e rfl)

theorem bind {x : Except Fault α} {f : α → Except Fault β} (hx : Raises P x)
    (hf : ∀ a, Raises P (f a)) : Raises P (x >>= f) :=
  bind_of_ok hx fun a _ => hf a

/-- **Wrapping** changes what is raised. -/
theorem mapError {x : Except Fault α} {wrap : Fault → Fault} (hx : Raises P x) (hw : ∀ {f}, P f → Q (wrap f)) :
    Raises Q (x.mapError wrap) := by
  cases x with
  | ok a => exact ok a
  | error e => exact error (hw (hx e rfl))

/-- **Going through a list** raises what some step does. -/
theorem mapM {f : α → Except Fault β} {as : List α} (hf : ∀ a ∈ as, Raises P (f a)) : Raises P (as.mapM f) := by
  induction as with
  | nil => exact ok _
  | cons a as ih =>
    rw [List.mapM_cons]
    refine bind (hf a List.mem_cons_self) fun _ => bind (ih fun b hb => ?_) fun _ => ok _
    exact hf b (List.mem_cons_of_mem a hb)

/-- **What is given or else refused.** -/
theorem elim {a : Option α} {f : Fault} {g : α → Except Fault β} (hf : P f)
    (hg : ∀ a, Raises P (g a)) : Raises P (a.elim (.error f) g) := by
  cases a with
  | none => exact error hf
  | some a => exact hg a

end Raises

/-! What each function that does not look at imports can refuse. -/

theorem Scope.raises_function (s : Scope) (name : String) : Raises Fault.Placeless (s.function name) :=
  .elim ⟨nofun, rfl, rfl⟩ .ok

theorem Scope.raises_global (s : Scope) (name : String) : Raises Fault.Placeless (s.global name) :=
  .elim ⟨nofun, rfl, rfl⟩ .ok

/-- **Declarations that are refused** name their unit. -/
theorem Scope.raises_addDecls (unit : String) : (seen : List String) → (s : Scope) → (ds : List Decl) →
    Raises (Fault.Located (some unit) none) (s.addDecls unit seen ds)
  | _, _, [] => .ok _
  | seen, s, d :: ds => by
    unfold Scope.addDecls
    split
    · exact .error ⟨nofun, rfl, rfl⟩
    split
    · exact .error ⟨nofun, rfl, rfl⟩
    exact raises_addDecls unit _ _ ds

theorem Frame.raises_localIndex (f : Frame) (i : Nat) : Raises Fault.Placeless (f.localIndex i) := by
  unfold Frame.localIndex
  split
  · exact .ok _
  split
  · exact .ok _
  · exact .error ⟨nofun, rfl, rfl⟩

theorem Literal.raises_parse (w : Width) (text : String) : Raises Fault.Placeless (Literal.parse w text) := by
  unfold Literal.parse
  split
  · exact .error ⟨nofun, rfl, rfl⟩
  split
  · exact .error ⟨nofun, rfl, rfl⟩
  split
  · exact .ok _
  · exact .error ⟨nofun, rfl, rfl⟩

theorem Operator.raises_lower (w : Width) (op : Operator) : Raises Fault.Placeless (op.lower w) := by
  have hi : Raises Fault.Placeless (op.instr w) := by
    unfold Operator.instr
    split
    · exact .elim ⟨nofun, rfl, rfl⟩ .ok
    split
    · exact .error ⟨nofun, rfl, rfl⟩
    · exact .elim ⟨nofun, rfl, rfl⟩ .ok
  exact .bind hi fun _ => .ok _

theorem Width.raises_castTo (source target : Width) : Raises Fault.Placeless (source.castTo target) := by
  unfold Width.castTo
  split
  · exact .error ⟨nofun, rfl, rfl⟩
  split
  · exact .ok _
  split
  · exact .ok _
  · split
    · exact .ok _
    split
    · exact .ok _
    · exact .error ⟨nofun, rfl, rfl⟩
  · split
    · exact .error ⟨nofun, rfl, rfl⟩
    split
    · exact .ok _
    · exact .ok _

theorem raises_loadElement (size : Nat) : Raises Fault.Placeless (loadElement size) := by
  unfold loadElement
  split
  iterate 4 exact .ok _
  exact .error ⟨nofun, rfl, rfl⟩

theorem raises_storeElement (size : Nat) : Raises Fault.Placeless (storeElement size) := by
  unfold storeElement
  split
  iterate 4 exact .ok _
  exact .error ⟨nofun, rfl, rfl⟩

theorem Trace.raises_record (fields : List TraceField) : Raises Fault.Placeless (Trace.record fields) := by
  unfold Trace.record
  split
  · exact .ok _
  · exact .error ⟨nofun, rfl, rfl⟩

namespace Initializer

theorem raises_binary (op : Operator) (w : Width) (a b : Value) : Raises Fault.Placeless (binary op w a b) := by
  unfold binary
  split
  · split
    · exact .elim ⟨nofun, rfl, rfl⟩ fun _ => .ok _
    · exact .error ⟨nofun, rfl, rfl⟩
  · split
    · exact .elim ⟨nofun, rfl, rfl⟩ fun _ => .ok _
    · exact .error ⟨nofun, rfl, rfl⟩
  · exact .error ⟨nofun, rfl, rfl⟩

theorem raises_eval (e : Expr) : Raises Fault.Placeless (eval e) := by
  fun_induction eval e with
  | case1 w text => exact Literal.raises_parse w text
  | case2 op w lhs rhs ihl ihr => exact .bind ihl fun _ => .bind ihr fun _ => raises_binary _ _ _ _
  | case3 e => exact .error ⟨nofun, rfl, rfl⟩

/-- **An initializer that is refused** names no place. -/
theorem raises_ofGlobal (scope : Scope) (g : Global) : Raises Fault.Placeless (ofGlobal scope g) := by
  unfold ofGlobal
  split
  · refine .bind (scope.raises_global _) fun index => ?_
    split
    · exact .ok _
    · exact .error ⟨nofun, rfl, rfl⟩
  · split
    · rename_i fault h
      exact .error (raises_eval _ fault h).inInitializer
    · split
      · exact .ok _
      · exact .error ⟨nofun, rfl, rfl⟩

end Initializer

/-- **A result that is changed** fails as before. -/
theorem Lower.map_eq_error {σ α β : Type} {x : EStateM Fault σ α} {g : α → β} {st st' : σ} {f : Fault} :
    (g <$> x) st = .error f st' ↔ x st = .error f st' := by
  change EStateM.map g x st = _ ↔ _
  unfold EStateM.map
  cases x st with
  | ok a mid => simp
  | error e mid => simp

/-- Every fault that a computation on a state raises has a property. -/
def Lower.Raises (P : Fault → Prop) {σ α : Type} (x : EStateM Fault σ α) : Prop :=
  ∀ s f s', x s = .error f s' → P f

namespace Lower.Raises

variable {P Q : Fault → Prop} {σ α β : Type}

/-- **A returned value is no fault.** -/
theorem pure (a : α) : Lower.Raises P (pure a : EStateM Fault σ α) := nofun

/-- **What only changes the state is no fault.** -/
theorem modifyGet (f : σ → α × σ) : Lower.Raises P (modifyGet f : EStateM Fault σ α) := nofun

theorem throw {f : Fault} (h : P f) : Lower.Raises P (throw f : EStateM Fault σ α) := by
  rintro _ _ _ ⟨⟩
  exact h

/-- **A computation in two parts** raises what its parts do. -/
theorem bind {x : EStateM Fault σ α} {f : α → EStateM Fault σ β} (hx : Lower.Raises P x)
    (hf : ∀ a, Lower.Raises P (f a)) : Lower.Raises P (x >>= f) := by
  intro s e s' h
  change EStateM.bind x f s = .error e s' at h
  unfold EStateM.bind at h
  cases hr : x s with
  | ok a mid =>
    rw [hr] at h
    exact hf a mid e s' h
  | error e' mid =>
    rw [hr] at h
    cases h
    exact hx s _ _ hr

/-- **A check before the rest** raises its fault, or what the rest does. -/
theorem guarded {p : Prop} [Decidable p] {f : Fault} {k : PUnit → EStateM Fault σ α} (hf : P f)
    (hk : ∀ u, Lower.Raises P (k u)) :
    Lower.Raises P (if p then MonadExcept.throw f >>= k else k PUnit.unit) := by
  split
  · exact bind (throw hf) hk
  · exact hk _

/-- **A part that is left out unless it is asked for.** -/
theorem optional {p : Prop} [Decidable p] {x : EStateM Fault σ α} {a : α} {k : α → EStateM Fault σ β}
    (hx : Lower.Raises P x) (hk : ∀ a, Lower.Raises P (k a)) :
    Lower.Raises P (if p then x >>= k else Pure.pure a >>= k) := by
  split
  · exact bind hx hk
  · exact bind (pure a) hk

/-- **A result that needs no state** raises what it did. -/
theorem lift {x : Except Fault α} (hx : WasmLowering.Raises P x) :
    Lower.Raises P (MonadExcept.ofExcept x : EStateM Fault σ α) := by
  cases x with
  | ok a => exact pure a
  | error f => exact throw (hx f rfl)

theorem ofExcept {x : Except Fault α} (hx : WasmLowering.Raises P x) : Lower.Raises P (Lower.ofExcept x) := by
  cases x with
  | ok a => exact pure a
  | error f => exact throw (hx f rfl)

theorem expectDepth (construct : String) (before : Nat) :
    Lower.Raises Fault.Placeless (Lower.expectDepth construct before) := by
  refine bind nofun fun st => ?_
  show Lower.Raises _ (if st.depth = before then _ else _)
  split
  · exact pure _
  · exact throw ⟨nofun, rfl, rfl⟩

theorem closeFrame : Lower.Raises Fault.Placeless Lower.closeFrame := by
  refine bind nofun fun st => ?_
  split
  · exact throw ⟨nofun, rfl, rfl⟩
  · exact bind nofun fun _ => pure _

end Lower.Raises

namespace Expr

open Lower.Raises (bind pure throw ofExcept modifyGet expectDepth closeFrame)

mutual

/-- **An expression that cannot be lowered** gives a fault without a place. -/
theorem raises_lower (scope : Scope) (frame : Frame) :
    (e : Expr) → Lower.Raises Fault.Placeless (e.lower scope frame)
  | .var i => bind (ofExcept (frame.raises_localIndex i)) fun _ => pure _
  | .global name => bind (ofExcept (scope.raises_global name)) fun _ => pure _
  | .literal w text => bind (ofExcept (Literal.raises_parse w text)) fun _ => pure _
  | .string _ => bind (modifyGet _) fun _ => pure _
  | .binary op w lhs rhs =>
    bind (raises_lower scope frame lhs) fun _ => bind (raises_lower scope frame rhs) fun _ =>
      bind (ofExcept (op.raises_lower w)) fun _ => pure _
  | .call name args =>
    bind (ofExcept (scope.raises_function name)) fun _ =>
      bind (raises_lowerArgs scope frame args) fun _ => pure _
  | .bufCreate _ count => bind (raises_lower scope frame count) fun _ => pure _
  | .bufRead size base index =>
    bind (raises_lower scope frame base) fun _ => bind (raises_lower scope frame index) fun _ =>
      bind (ofExcept (raises_loadElement size)) fun _ => pure _
  | .bufWrite size base index value =>
    bind (raises_lower scope frame base) fun _ => bind (raises_lower scope frame index) fun _ =>
      bind (raises_lower scope frame value) fun _ =>
        bind (ofExcept (raises_storeElement size)) fun _ => pure _
  | .bufSub _ base index =>
    bind (raises_lower scope frame base) fun _ =>
      bind (raises_lower scope frame index) fun _ => pure _
  | .cast operand source target =>
    bind (raises_lower scope frame operand) fun _ =>
      bind (ofExcept (source.raises_castTo target)) fun _ => pure _
  | .ifThenElse cond whenTrue whenFalse _ =>
    bind (raises_lower scope frame cond) fun _ => bind nofun fun _ =>
      bind (raises_lower scope frame whenTrue) fun _ => bind (expectDepth _ _) fun _ =>
        bind (raises_lower scope frame whenFalse) fun _ => bind (expectDepth _ _) fun _ => pure _
  | .assign i value =>
    bind (raises_lower scope frame value) fun _ =>
      bind (ofExcept (frame.raises_localIndex i)) fun _ => pure _
  | .whileLoop cond body =>
    bind nofun fun _ => bind (raises_lower scope frame cond) fun _ =>
      bind (raises_lower scope frame body) fun _ => bind (expectDepth _ _) fun _ => pure _
  | .ignore operand => bind (raises_lower scope frame operand) fun _ => pure _
  | .sequence items => raises_lowerItems scope frame items
  | .pushFrame => bind (modifyGet _) fun _ => pure _
  | .popFrame => bind closeFrame fun _ => pure _
  | .bufInit .. | .bufBlit .. | .bufFill .. | .bufFree _ | .abort _ | .switch .. => throw ⟨nofun, rfl, rfl⟩

theorem raises_lowerArgs (scope : Scope) (frame : Frame) :
    (es : List Expr) → Lower.Raises Fault.Placeless (lowerArgs scope frame es)
  | [] => pure _
  | e :: es =>
    bind (raises_lower scope frame e) fun _ =>
      bind (raises_lowerArgs scope frame es) fun _ => pure _

theorem raises_lowerItems (scope : Scope) (frame : Frame) :
    (es : List Expr) → Lower.Raises Fault.Placeless (lowerItems scope frame es)
  | [] => pure _
  | [e] => raises_lower scope frame e
  | e :: e' :: es =>
    bind (raises_lower scope frame e) fun _ =>
      bind (raises_lowerItems scope frame (e' :: es)) fun _ => pure _

end

end Expr

namespace Function

open Lower.Raises (bind pure guarded optional lift)

/-- **A function that cannot be lowered** gives a fault that names no unit and no other function. -/
theorem raises_lower (scope : Scope) (traced : Bool) (f : Function) :
    Lower.Raises (Fault.OfFunction f.name) (f.lower scope traced) := by
  have hbody : Lower.Raises (Fault.OfFunction f.name) (f.lowerBody scope) := by
    intro segment fault s' h
    unfold lowerBody at h
    split at h
    · cases h
    · rename_i st hl
      cases h
      exact .inl (f.body.raises_lower scope f.frame _ _ _ hl)
  have hrecord (fields : List TraceField) : Raises (Fault.OfFunction f.name) (Trace.record fields) :=
    (Trace.raises_record fields).mono fun _ => .inl
  have hentry : Lower.Raises (Fault.OfFunction f.name) (Trace.entry f.name (f.args.map Width.kind)) :=
    bind nofun fun _ => lift (hrecord _)
  have hexit : Lower.Raises (Fault.OfFunction f.name) (Trace.exit f.resultKind f.frame.registers) :=
    bind nofun fun _ => bind (lift (hrecord _)) fun _ => pure _
  unfold lower
  refine guarded (.inr ⟨nofun, rfl, rfl⟩) fun _ => ?_
  refine optional hentry fun _ => bind hbody fun r => ?_
  refine guarded (.inr ⟨nofun, rfl, rfl⟩) fun _ => ?_
  exact optional hexit fun _ => pure _

end Function

namespace Assembly

section Bodies

variable {scope : Scope} {traced : Bool} {f : Function} {fs : List Function} {seg mid left : Segment}

/-- **A function that fails ends the lowering,** and its fault is put in its place. -/
theorem bodies_of_error {cause : Fault} (h : f.lower scope traced seg = .error cause left) :
    bodies scope traced (f :: fs) seg = .error (.inFunction f.name cause) left := by
  change EStateM.bind (EStateM.tryCatch (f.lower scope traced) _) _ seg = _
  unfold EStateM.bind EStateM.tryCatch
  rw [h]
  rfl

/-- **Behind a function that is lowered** the rest goes on over the segment that it leaves. -/
theorem bodies_of_ok {b : FuncBody} (h : f.lower scope traced seg = .ok b mid) :
    bodies scope traced (f :: fs) seg = ((b :: ·) <$> bodies scope traced fs) mid := by
  change EStateM.bind (EStateM.tryCatch (f.lower scope traced) _) _ seg = _
  unfold EStateM.bind EStateM.tryCatch
  rw [h]
  rfl

end Bodies

/-- **Bodies that cannot be lowered** give a fault that names a function and no unit. -/
theorem raises_bodies (scope : Scope) (traced : Bool) :
    (fs : List Function) → Lower.Raises (fun f => ∃ name, f.Located none (some name)) (bodies scope traced fs)
  | [] => .pure _
  | f :: fs => by
    intro s fault s' h
    cases hl : f.lower scope traced s with
    | ok body mid =>
      rw [bodies_of_ok hl, Lower.map_eq_error] at h
      exact raises_bodies scope traced fs mid fault s' h
    | error cause mid =>
      rw [bodies_of_error hl] at h
      cases h
      exact ⟨f.name, (f.raises_lower scope traced _ _ _ hl).inFunction⟩

theorem raises_lowerFunctions (scope : Scope) (traced : Bool) (u : SourceUnit) :
    Raises (fun f => ∃ name, f.Located (some u.name) (some name)) (lowerFunctions scope traced u) := by
  unfold lowerFunctions
  split
  · exact .ok _
  · rename_i fault s h
    obtain ⟨name, hname⟩ := raises_bodies scope traced _ _ _ _ h
    exact .error ⟨name, hname.inUnit⟩

/-- **Globals that cannot start** give a fault that names the unit and no function. -/
theorem raises_globalDefs (scope : Scope) (u : SourceUnit) :
    Raises (Fault.Located (some u.name) none) (globalDefs scope u) :=
  .mapError (.mapM fun g _ => .bind (Initializer.raises_ofGlobal scope g) fun _ => .ok _) Fault.Located.inUnit

theorem raises_exports (scope : Scope) (u : SourceUnit) : Raises Fault.Placeless (exports scope u) := by
  refine .bind (.mapM fun d _ => ?_) fun _ => .ok _
  unfold export?
  split
  · cases d with
    | function f => exact .bind (scope.raises_function f.name) fun _ => .ok _
    | global g => exact .bind (scope.raises_global g.name) fun _ => .ok _
    | type n => exact .ok _
  · exact .ok _

end Assembly

/-! ## Errors of the compiler -/

/-- A result that is no error of the compiler. -/
def Blameless {α : Type} (x : Except Fault α) : Prop := ∀ f, x = .error f → ¬ f.Internal

/-- **The names of declarations are not the compiler's fault.** -/
theorem Scope.blameless_addDecls (unit : String) (seen : List String) (s : Scope) (ds : List Decl) :
    Blameless (s.addDecls unit seen ds) :=
  (raises_addDecls unit seen s ds).mono fun _ => Fault.Located.kind

end WasmLowering
