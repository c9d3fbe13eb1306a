/-
# The bodies of a module that passed have types

The converse of `WasmLowering.Proofs.Validation`.  The check takes the header and
the seven sections in turn, so a module that passed has passed each of them, from
the context that the sections before it have led to:

    types → imports → functions → globals → exports → code → data

`Passed` tells that what is left of the bytes has passed from some context on, and
each section is one step back from it.  The bodies were checked last, over all
that the module declares.  There the locals are read and the code is decoded as
written, so that orderly code has passed as what it is, and has a type.
-/

import WasmLowering.Proofs.AcceptedItems
import WasmLowering.Proofs.CheckedCode
import WasmLowering.Proofs.Validation

namespace WasmLowering
namespace Wasm

/-! ## Function bodies -/

namespace Takes

/-- **Groups of locals that are read** stand behind the locals at hand, and there are not too many. -/
theorem localGroups (types : TypeSpace) : (groups : List (Nat × Kind)) → (before : List ValType) →
    Takes (Validate.localGroups types groups.length before.toArray)
      (groups.flatMap fun r => Leb128.unsigned r.1 ++ [kindByte r.2])
      (fun a => a = (before ++ groupTypes groups).toArray ∧ a.size ≤ max before.length Validate.localLimit)
  | [], before => .pure ⟨by rw [groupTypes]; simp, Nat.le_max_left ..⟩
  | (n, k) :: groups, before => by
    have htypes : groupTypes ((n, k) :: groups) = List.replicate n (.ofKind k) ++ groupTypes groups := by
      simp [groupTypes]
    have hresolve : types.resolveVal (.ofKind k) = .ok (.ofKind k) := by cases k <;> rfl
    have hgroup : Takes (Validate.localGroup types before.toArray) (Leb128.unsigned n ++ [kindByte k])
        (fun a => a = (before ++ List.replicate n (ValType.ofKind k)).toArray ∧
          before.length + n ≤ Validate.localLimit) := by
      refine .atPosition fun here => (u32 n).bind ?_
      rintro _ ⟨rfl, -⟩
      refine (of_reads (.valType k)).bindLast ?_
      rintro _ rfl
      refine (of_reads (.check hresolve)).bindLast ?_
      rintro _ rfl
      refine .guarded (fun _ => ⟨_, rfl⟩) fun hlimit => .pure ⟨by simp, ?_⟩
      rw [List.size_toArray] at hlimit
      exact Nat.le_of_not_lt hlimit
    rw [htypes, List.flatMap_cons, ← List.append_assoc]
    refine hgroup.bind ?_
    rintro _ ⟨rfl, hlimit⟩
    intro offset rest a s hrun
    obtain ⟨hs, ha, hsize⟩ := localGroups types groups _ offset rest a s hrun
    refine ⟨hs, ha, ?_⟩
    rw [List.length_append, List.length_replicate] at hsize
    omega

/-- **The locals of a body that are read** stand behind its parameters, and there are not too many. -/
theorem locals (types : TypeSpace) (params ks : List Kind) :
    Takes (Validate.locals types (valTypes params))
      (Encode.list (fun r => Leb128.unsigned r.1 ++ [kindByte r.2]) (Encode.runs ks))
      (fun a => a = (valTypes (params ++ ks)).toArray ∧
        (params ++ ks).length ≤ max params.length Validate.localLimit) := by
  have hgroups : groupTypes (Encode.runs ks) = valTypes ks := by rw [groupTypes, Encode.flatMap_runs]
  have happend : valTypes (params ++ ks) = valTypes params ++ groupTypes (Encode.runs ks) := by
    rw [hgroups, valTypes, List.map_append]
  refine (u32 _).bind ?_
  rintro _ ⟨rfl, -⟩
  intro offset rest a s hrun
  obtain ⟨hs, rfl, hsize⟩ := localGroups types (Encode.runs ks) (valTypes params) offset rest a s hrun
  rw [← happend] at hsize ⊢
  refine ⟨hs, rfl, ?_⟩
  simpa using hsize

end Takes

/-- **The body of a function that passed has the type of the function,** if its code is orderly. -/
theorem Validate.hasType_of_body {spaces : IndexSpaces} {t : FuncType} {b : FuncBody} {d : Declarations}
    {content : Slice} (hd : d.Provides spaces) (hfunctions : spaces.functions.length ≤ operandBound)
    (hglobals : spaces.globals.length ≤ operandBound) (hparams : t.params.length ≤ operandBound)
    (hcode : b.code.isOrderly spaces (t.params ++ b.locals) = true)
    (hcontent : content.bytes = Encode.bodyContent b) (h : Validate.body d t.signature content = .ok ()) :
    Code.HasType spaces (t.params ++ b.locals) [t.results] b.code [] t.results.reverse := by
  obtain ⟨offset, bytes⟩ := content
  obtain rfl : bytes = Encode.bodyContent b := hcontent
  rw [Encode.bodyContent, List.append_assoc] at h
  obtain ⟨⟨locals, rest⟩, hlocals, hbody⟩ := ok_of_bind h
  obtain ⟨rfl, rfl, hcount⟩ := Takes.locals d.types t.params b.locals offset _ locals rest hlocals
  have hlimit : Validate.localLimit ≤ operandBound := by decide
  have hranges : RangesFit spaces (t.params ++ b.locals) := ⟨hfunctions, hglobals, by omega⟩
  have hfits := Code.fits_of_isArm hranges (Code.isArm_of_isOrderly hcode)
  obtain ⟨ops, hdecode, hops⟩ := Decode.code_eq hfits (offset +
    (Encode.list (fun r => Leb128.unsigned r.1 ++ [kindByte r.2]) (Encode.runs b.locals)).length)
  dsimp only at hbody
  rw [hdecode] at hbody
  exact Typing.hasType_of_body ⟨hd, rfl⟩ rfl hcode hops hbody

theorem Leb128.unsigned_ne_nil (n : Nat) : Leb128.unsigned n ≠ [] := by
  rw [Leb128.unsigned]
  split <;> exact List.cons_ne_nil _ _

theorem Encode.sized_ne_nil (content : Bytes) : Encode.sized content ≠ [] :=
  List.append_ne_nil_of_left_ne_nil (Leb128.unsigned_ne_nil _) _

theorem Encode.importEntry_ne_nil (i : Import) : Encode.importEntry i ≠ [] := by
  rw [Encode.importEntry, List.append_assoc]
  exact List.append_ne_nil_of_left_ne_nil (Encode.sized_ne_nil _) _

theorem Encode.exportEntry_ne_nil (e : Export) : Encode.exportEntry e ≠ [] :=
  List.append_ne_nil_of_left_ne_nil (Encode.sized_ne_nil _) _

/-! ## From section to section -/

/-- What is left of the bytes of a module has passed, from a context on, and has led to an end. -/
def Passed (limit : Nat) (p : Progress) (ctx : ModuleContext) (bytes : Bytes) (s : Inspection) : Prop :=
  ∃ offset, Payload.foldM Inspection.payload (.ofModule ctx)
    (Payload.upTo limit [.inModule p offset bytes]) = .ok s

namespace Passed

variable {limit : Nat} {p : Progress} {ctx : ModuleContext} {rest : Bytes} {s : Inspection}

/-- **A section has passed, and then the rest has.** -/
theorem step {id : UInt8} {content : Bytes} {p' : Progress} {P : Payload → Prop} (hid : id ≠ 0)
    (hid' : id.toNat < 128)
    (hread : content.length < 4294967296 → Reads (Payload.readSection p id.toNat content.length) content
      (fun r => P r.1 ∧ r.2 = p'))
    (h : Passed (limit + 1) p ctx (Encode.sect id content ++ rest) s) :
    ∃ payload checked offset, P payload ∧ Inspection.payload (.ofModule ctx) payload = .ok checked ∧
      Payload.foldM Inspection.payload checked (Payload.upTo limit [.inModule p' offset rest]) = .ok s := by
  obtain ⟨offset, hfold⟩ := h
  obtain ⟨payload, frames, checked, hnext, hcheck, hrest⟩ := Payload.foldM_eq_ok hfold
  have hsize := Frame.size_of_next hid hnext
  obtain ⟨payload', offset', hnext', hp⟩ := Frame.next_section hid hid' hsize (hread hsize) offset rest
  rw [hnext'] at hnext
  cases hnext
  exact ⟨payload, checked, offset', hp, hcheck, hrest⟩

/-- **A section of items has passed, and then the rest has.** -/
theorem items {α : Type} {enc : α → Bytes} {xs : List α} {id : UInt8} {rank : Nat}
    (hid : id.toNat ≠ 10 ∧ id.toNat ∈ Payload.counted) (hrank : Payload.rank? id.toNat = some rank)
    (hlater : p.rank < rank) (hdata : (p.after rank id.toNat xs.length).dataCount = none)
    (henc : ∀ x, enc x ≠ [])
    (h : Passed (limit + 1) p ctx (Encode.sect id (Encode.list enc xs) ++ rest) s) :
    ∃ ctx' here offset, Items.checkSection ctx id.toNat xs.length here ⟨offset, xs.flatMap enc⟩ = .ok ctx' ∧
      Passed limit (p.after rank id.toNat xs.length) ctx' rest s := by
  have hsmall : ∀ n ∈ Payload.counted, n ≠ 0 ∧ n < 128 := by decide
  obtain ⟨hzero, hlarge⟩ := hsmall id.toNat hid.2
  have hxs := Encode.length_le_list henc xs
  obtain ⟨_, checked, offset', ⟨here, offset, rfl⟩, hcheck, hrest⟩ :=
    step (fun h => hzero (congrArg UInt8.toNat h)) hlarge
      (fun hsize => Reads.sectionItems ⟨hzero, hid⟩ hrank hlater hdata (Nat.lt_of_le_of_lt hxs hsize)) h
  obtain ⟨ctx', hsection, heq⟩ := ok_of_bind
    (x := Items.checkSection ctx id.toNat xs.length here ⟨offset, xs.flatMap enc⟩) hcheck
  cases heq
  exact ⟨ctx', here, offset, hsection, offset', hrest⟩

/-- **The code section has passed, and then the rest has.** -/
theorem code {bs : List FuncBody} (hlater : p.rank < 12) (hfunctions : p.functions = some bs.length)
    (h : Passed (limit + 1) p ctx (Encode.sect 10 (Encode.list Encode.body bs) ++ rest) s) :
    ∃ contents, contents.map Slice.bytes = bs.map Encode.bodyContent ∧
      Passed limit { p with rank := 12, bodies := some bs.length } { ctx with bodies := contents } rest s := by
  have hbs := Encode.length_le_list (fun b => Encode.sized_ne_nil (Encode.bodyContent b)) bs
  obtain ⟨_, checked, offset, ⟨contents, rfl, hcontents⟩, hcheck, hrest⟩ := step (by decide) (by decide)
    (fun hsize => Reads.sectionCode hlater hfunctions (Nat.lt_of_le_of_lt hbs hsize) hsize) h
  cases hcheck
  exact ⟨contents, hcontents, offset, hrest⟩

/-- **A module has ended,** and its bodies were left to check. -/
theorem finish (h : Passed (limit + 1) p ctx [] s) : s.jobs = Inspection.jobsOf ctx := by
  obtain ⟨offset, hfold⟩ := h
  obtain ⟨payload, frames, checked, hnext, hcheck, hrest⟩ := Payload.foldM_eq_ok hfold
  cases hp : p.mismatch? with
  | some cause =>
    simp only [Frame.next, Frame.inModule, hp] at hnext
    cases hnext
  | none =>
    rw [Frame.next_finish hp] at hnext
    cases hnext
    cases hcheck
    have hnone : Payload.upTo limit [] = ([], none) := by cases limit <;> rfl
    rw [hnone] at hrest
    cases hrest
    rfl

end Passed

/-! ## Modules -/

/-- **Each check of a list that passed has passed.** -/
theorem ok_of_forM {ε α : Type} {f : α → Except ε Unit} :
    {as : List α} → as.forM f = .ok () → ∀ a ∈ as, f a = .ok ()
  | [], _ => nofun
  | a :: as, h => by
    obtain ⟨_, ha, has⟩ := ok_of_bind (x := f a) h
    exact List.forall_mem_cons.2 ⟨ha, ok_of_forM has⟩

namespace Module

variable {m : Module}

/-- What is known of a module without looking at the types of its code. -/
structure IsOrderly (m : Module) : Prop where
  memory : ∃ pages, m.memories = [pages]
  globals : ∀ g ∈ m.globals, ∀ i, g.init = .globalGet i → i < m.importedGlobals.length
  bodyCount : m.bodies.length = m.functions.length
  bodies : ∀ b ∈ m.functions.zip m.bodies,
    b.2.code.isOrderly m.spaces ((m.typeAt b.1).params ++ b.2.locals) = true

/-- What the sections of a module that passed have led to. -/
structure Accepts (m : Module) (jobs : List Job) : Prop where
  arity : ∀ t ∈ m.types, t.params.length ≤ Reader.arityLimit
  functions : ∀ t ∈ m.functionTypes, t < m.types.length
  functionCount : m.functionTypes.length ≤ ModuleContext.itemLimit
  globalCount : m.globalKinds.length ≤ ModuleContext.itemLimit
  jobs : ∃ d contents, d.Provides m.spaces ∧ contents.map Slice.bytes = m.bodies.map Encode.bodyContent ∧
    jobs = (((m.functions.map m.typeAt).map FuncType.signature).zip contents).map fun b => ⟨d, b.1, b.2⟩

/-- **The sections of a module that passed** have led to all that it declares. -/
theorem accepts_of_passed (ho : m.IsOrderly) {limit : Nat} {s : Inspection}
    (h : Passed (limit + 8) .start (.start .empty) m.sections s) : m.Accepts s.jobs := by
  obtain ⟨ctx, here, offset, hcheck, h⟩ := h.items (by decide) rfl (show 0 < 1 by decide) rfl fun _ => List.cons_ne_nil _ _
  obtain ⟨space, hspace, hctx, harity⟩ := types_of_check hcheck
  obtain ⟨ctx, here, offset, hcheck, h⟩ :=
    h.items (by decide) rfl (show 1 < 2 by decide) rfl Encode.importEntry_ne_nil
  obtain ⟨hctx, hentities⟩ := imports_of_check hspace hctx hcheck
  obtain ⟨ctx, here, offset, hcheck, h⟩ :=
    h.items (by decide) rfl (show 2 < 3 by decide) rfl Leb128.unsigned_ne_nil
  obtain ⟨hctx, hdefined, hfunctions⟩ := functions_of_check hspace hctx hcheck
  obtain ⟨ctx, here, offset, hcheck, h⟩ := h.items (by decide) rfl (show 3 < 7 by decide) rfl fun _ => List.cons_ne_nil _ _
  obtain ⟨hctx, hglobals⟩ := globals_of_check hctx ho.globals hcheck
  obtain ⟨named, here, offset, hcheck, h⟩ :=
    h.items (by decide) rfl (show 7 < 8 by decide) rfl Encode.exportEntry_ne_nil
  obtain ⟨_, _, hnamed⟩ := (Items.sameItems_of_check rfl Items.exportEntry_yields hcheck).has hctx
  have hcounts : some m.functions.length = some m.bodies.length := congrArg some ho.bodyCount.symm
  obtain ⟨contents, hcontents, h⟩ := h.code (show 8 < 12 by decide) hcounts
  have hbodies : ModuleContext.Has { named with bodies := contents } space
      { m.givenByGlobals m.globals with exports := _, typeSize := _, bodies := contents } :=
    ⟨hnamed.types, hnamed.functions, hnamed.memories, hnamed.globals, hnamed.defined, hnamed.exports,
      hnamed.typeSize, rfl⟩
  obtain ⟨last, here, offset, hcheck, h⟩ := h.items (by decide) rfl (show 12 < 13 by decide) rfl fun _ => List.cons_ne_nil _ _
  obtain ⟨_, _, hlast⟩ := (Items.sameItems_of_check rfl Items.dataEntry_yields hcheck).has hbodies
  have htypes : ∀ t ∈ m.functionTypes, t < m.types.length := by
    refine List.forall_mem_append.2 ⟨fun t ht => ?_, hdefined⟩
    obtain ⟨i, hi, htype⟩ := List.mem_filterMap.1 ht
    have hentity := hentities i hi
    cases he : i.entity with
    | function t' =>
      rw [he] at hentity htype
      cases htype
      exact hentity
    | global _ | memory _ =>
      rw [he] at htype
      cases htype
  obtain ⟨pages, hpages⟩ := ho.memory
  refine ⟨harity, htypes, hfunctions, hglobals, last.declarations, contents,
    hlast.provides hspace htypes hpages, hcontents, ?_⟩
  rw [h.finish, Inspection.jobsOf, hlast.defined, hlast.bodies]
  rfl

/-- **The sections of a valid module** have passed, and so have the bodies that they have left. -/
theorem accepts_of_validate (ho : m.IsOrderly) (h : validate m.encode = .ok ()) :
    ∃ jobs, m.Accepts jobs ∧ ∀ job ∈ jobs, Validate.body job.declarations job.signature job.content = .ok () := by
  obtain ⟨s, hfold, hjobs⟩ := ok_of_bind h
  rw [foldM_ofBytes rfl] at hfold
  exact ⟨s.jobs, accepts_of_passed ho ⟨8, hfold⟩, ok_of_forM hjobs⟩

/-- **The bodies of an orderly module that is valid have the types of their functions.** -/
theorem hasBody_of_validate (ho : m.IsOrderly) (h : validate m.encode = .ok ()) :
    ∀ b ∈ m.functions.zip m.bodies, m.HasBody b.1 b.2 := by
  obtain ⟨jobs, haccepts, hjobs⟩ := accepts_of_validate ho h
  obtain ⟨d, contents, hd, hcontents, rfl⟩ := haccepts.jobs
  rintro ⟨t, b⟩ hb
  -- Functions and bodies pair as signatures and contents do.
  have hpair : ((m.typeAt t).signature, Encode.bodyContent b) ∈
      ((m.functions.map m.typeAt).map FuncType.signature).zip (contents.map Slice.bytes) := by
    rw [hcontents, List.map_map, List.zip_map]
    exact List.mem_map.2 ⟨(t, b), hb, rfl⟩
  rw [List.zip_map_right] at hpair
  obtain ⟨⟨signature, content⟩, hmem, heq⟩ := List.mem_map.1 hpair
  obtain ⟨rfl, hcontent⟩ := Prod.mk.inj heq
  have hjob := hjobs ⟨d, (m.typeAt t).signature, content⟩ (List.mem_map.2 ⟨_, hmem, rfl⟩)
  have hparams : (m.typeAt t).params.length ≤ Reader.arityLimit := by
    have ht := haccepts.functions t (List.mem_append_right _ (List.of_mem_zip hb).1)
    rw [typeAt, List.getElem?_eq_getElem ht]
    exact haccepts.arity _ (List.getElem_mem ht)
  refine Validate.hasType_of_body hd ?_ (Nat.le_trans haccepts.globalCount (by decide))
    (Nat.le_trans hparams (by decide)) (ho.bodies _ hb) hcontent hjob
  rw [spaces, List.length_map]
  exact Nat.le_trans haccepts.functionCount (by decide)

end Module

end Wasm
end WasmLowering
