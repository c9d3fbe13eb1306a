/-
# Emitted modules are valid

The bytes of a well-formed module pass the check of bytes, if counts and sizes
are within its limits.  The check takes the header and the seven sections in
turn; a section that passes leaves the context that the next one needs:

    types → imports → functions → globals → exports → code → data

`Remains` tells that what is left of the bytes passes from some context on, and
each section is one step of it.  The code section only sets the bodies aside.
They are checked last, over all that the module declares.

What an assembled unit emits is such a module.
-/

import WasmLowering.Link
import WasmLowering.Proofs.Framing
import WasmLowering.Proofs.ItemChecking

namespace WasmLowering
namespace Wasm

/-! ## Function bodies -/

namespace Encode

/-- **Runs of equal kinds spell out the kinds.** -/
theorem flatMap_runs : (ks : List Kind) → (runs ks).flatMap (fun r => List.replicate r.1 r.2) = ks
  | [] => rfl
  | k :: ks => by
    have ih := flatMap_runs ks
    rw [runs]
    split
    · rename_i hruns
      rw [hruns] at ih
      rw [← ih]
      rfl
    · rename_i n k' rest hruns
      rw [hruns, List.flatMap_cons] at ih
      split
      · rename_i heq
        rw [List.flatMap_cons, List.replicate_succ, List.cons_append, heq, ih]
      · rw [List.flatMap_cons, List.flatMap_cons, ih]
        rfl

/-- **There are no more runs than kinds.** -/
theorem length_runs_le : (ks : List Kind) → (runs ks).length ≤ ks.length
  | [] => Nat.le_refl 0
  | k :: ks => by
    have ih := length_runs_le ks
    rw [runs]
    split
    · exact Nat.succ_le_succ (Nat.zero_le _)
    · rename_i hruns
      rw [hruns] at ih
      split
      · exact Nat.le_succ_of_le ih
      · exact Nat.succ_le_succ ih

end Encode

/-- The types of the locals that groups stand for. -/
def groupTypes (groups : List (Nat × Kind)) : List ValType :=
  valTypes (groups.flatMap fun r => List.replicate r.1 r.2)

namespace Reads

/-- **Groups of locals are read back** behind the locals at hand, if there are not too many. -/
theorem localGroups (types : TypeSpace) : (groups : List (Nat × Kind)) → (before : List ValType) →
    before.length + (groupTypes groups).length ≤ Validate.localLimit →
      Reads (Validate.localGroups types groups.length before.toArray)
        (groups.flatMap fun r => Leb128.unsigned r.1 ++ [kindByte r.2])
        (· = (before ++ groupTypes groups).toArray)
  | [], before, _ => .pure (by rw [groupTypes]; simp)
  | (n, k) :: groups, before, h => by
    have htypes : groupTypes ((n, k) :: groups) = List.replicate n (.ofKind k) ++ groupTypes groups := by
      simp [groupTypes]
    have hresolve : types.resolveVal (.ofKind k) = .ok (.ofKind k) := by cases k <;> rfl
    have hlimit : Validate.localLimit = 50000 := rfl
    rw [htypes, List.length_append, List.length_replicate] at h
    rw [htypes, List.flatMap_cons, ← List.append_assoc]
    have hgroup : Reads (Validate.localGroup types before.toArray) (Leb128.unsigned n ++ [kindByte k])
        (· = (before ++ List.replicate n (ValType.ofKind k)).toArray) := by
      refine .bindNil .position fun here _ => (u32 (by omega)).bind ?_
      rintro _ rfl
      refine (valType k).bindLast ?_
      rintro _ rfl
      refine (check hresolve).bindLast ?_
      rintro _ rfl
      refine .guarded ?_ (.pure ?_)
      · rw [List.size_toArray]
        omega
      · simp
    refine hgroup.bind ?_
    rintro _ rfl
    refine localGroups types groups _ ?_
    rw [List.length_append, List.length_replicate]
    omega

/-- **The locals of a body are read back** behind its parameters. -/
theorem locals (types : TypeSpace) {params ks : List Kind}
    (h : params.length + ks.length ≤ Validate.localLimit) :
    Reads (Validate.locals types (valTypes params))
      (Encode.list (fun r => Leb128.unsigned r.1 ++ [kindByte r.2]) (Encode.runs ks))
      (· = (valTypes (params ++ ks)).toArray) := by
  have hgroups : groupTypes (Encode.runs ks) = valTypes ks := by rw [groupTypes, Encode.flatMap_runs]
  have hlimit : Validate.localLimit = 50000 := rfl
  have hcount := Encode.length_runs_le ks
  refine (u32 (by omega)).bind ?_
  rintro _ rfl
  have happend : valTypes (params ++ ks) = valTypes params ++ groupTypes (Encode.runs ks) := by
    rw [hgroups, valTypes, List.map_append]
  rw [happend]
  refine localGroups types _ _ ?_
  rw [hgroups, List.length_map, List.length_map]
  exact h

end Reads

/-- **The body of a function with its type passes the check of bytes.** -/
theorem Validate.body_eq_ok {m : Module} {t : Nat} {b : FuncBody} {d : Declarations} {content : Slice}
    (hl : m.IsWithinLimits) (hbody : m.HasBody t b)
    (hlocals : (m.typeAt t).params.length + b.locals.length ≤ Validate.localLimit)
    (hd : d.Provides m.spaces) (hcontent : content.bytes = Encode.bodyContent b)
    (hsize : (Encode.bodyContent b).length < 4294967296) :
    Validate.body d (m.typeAt t).signature content = .ok () := by
  obtain ⟨offset, bytes⟩ := content
  obtain rfl : bytes = Encode.bodyContent b := hcontent
  have hroom : OperandsFit m.spaces ((m.typeAt t).params ++ b.locals) (1 + b.code.flatten.length) := by
    have hcode := Decode.length_le_flatMap b.code.flatten
    have hlength : (Encode.code b.code).length + 1 ≤ (Encode.bodyContent b).length := by
      rw [Encode.bodyContent, List.length_append, List.length_append]
      exact Nat.add_le_add_right (Nat.le_add_left ..) 1
    refine ⟨?_, Nat.le_trans hl.globals (by decide), ?_, ?_⟩
    · rw [Module.spaces, List.length_map]
      exact Nat.le_trans hl.functions (by decide)
    · rw [List.length_append]
      exact Nat.le_trans hlocals (by decide)
    · unfold Encode.code at hlength
      unfold operandBound
      omega
  have hread := Reads.locals d.types hlocals
  obtain ⟨_, hread, rfl⟩ := hread offset (Encode.code b.code ++ [Encode.finishByte])
  obtain ⟨ops, hdecode, hops⟩ := Decode.code_eq (hbody.fits hroom) (offset +
    (Encode.list (fun r => Leb128.unsigned r.1 ++ [kindByte r.2]) (Encode.runs b.locals)).length)
  have hcheck : Typing.body
      { declarations := d
        locals := (valTypes ((m.typeAt t).params ++ b.locals)).toArray
        results := (m.typeAt t).signature.results }
      (m.typeAt t).signature.params.length ⟨ops, none⟩ = .ok () :=
    Typing.body_eq_ok ⟨hd, rfl⟩ rfl hbody hops _
  rw [Encode.bodyContent, List.append_assoc]
  show (Validate.locals d.types (valTypes (m.typeAt t).params) _ >>= _) = _
  rw [hread]
  show Typing.body _ _ (Decode.code ⟨_, Encode.code b.code ++ [Encode.finishByte]⟩) = _
  rw [hdecode]
  exact hcheck

/-! ## From section to section -/

/-- A check within a module. -/
def Inspection.ofModule (ctx : ModuleContext) : Inspection := ⟨none, [.module ctx], .empty, .empty, []⟩

/-- What is left of the bytes of a module passes, and leaves bodies to check. -/
def Remains (limit : Nat) (p : Progress) (ctx : ModuleContext) (bytes : Bytes) (J : List Job → Prop) :
    Prop :=
  bytes.length < 4294967296 → ∀ offset, ∃ s : Inspection,
    Payload.foldM Inspection.payload (.ofModule ctx)
      (Payload.upTo limit [.inModule p offset bytes]) = .ok s ∧ J s.jobs

namespace Remains

variable {limit : Nat} {p : Progress} {ctx : ModuleContext} {rest : Bytes} {J : List Job → Prop}

/-- **A section passes, and then the rest does.** -/
theorem step {id : UInt8} {content : Bytes} {p' : Progress} {P : Payload → Prop}
    {C : ModuleContext → Prop} (hid : id ≠ 0) (hid' : id.toNat < 128)
    (hread : content.length < 4294967296 → Reads (Payload.readSection p id.toNat content.length) content
      (fun r => P r.1 ∧ r.2 = p'))
    (hcheck : ∀ payload, P payload → ∃ ctx', Inspection.payload (.ofModule ctx) payload =
      .ok (.ofModule ctx') ∧ C ctx')
    (hrest : ∀ ctx', C ctx' → Remains limit p' ctx' rest J) :
    Remains (limit + 1) p ctx (Encode.sect id content ++ rest) J := by
  intro hsize offset
  have hlength := Encode.length_le_sized content
  rw [List.length_append, Encode.sect, List.length_cons] at hsize
  have hcontent : content.length < 4294967296 := by omega
  obtain ⟨payload, offset', hnext, hp⟩ := Frame.next_section hid hid' hcontent (hread hcontent) offset rest
  obtain ⟨ctx', hpayload, hinv⟩ := hcheck payload hp
  rw [Payload.foldM_upTo hnext hpayload]
  exact hrest ctx' hinv (by omega) offset'

/-- **A section of items passes, and then the rest does.** -/
theorem items {α : Type} {enc : α → Bytes} {xs : List α} {id : UInt8} {rank : Nat}
    {C : ModuleContext → Prop}
    (hid : id.toNat ≠ 10 ∧ id.toNat ∈ Payload.counted) (hrank : Payload.rank? id.toNat = some rank)
    (hlater : p.rank < rank) (hdata : (p.after rank id.toNat xs.length).dataCount = none)
    (hcount : xs.length ≤ ModuleContext.itemLimit)
    (hcheck : ∀ here offset, ∃ ctx', Items.checkSection ctx id.toNat xs.length here
      ⟨offset, xs.flatMap enc⟩ = .ok ctx' ∧ C ctx')
    (hrest : ∀ ctx', C ctx' → Remains limit (p.after rank id.toNat xs.length) ctx' rest J) :
    Remains (limit + 1) p ctx (Encode.sect id (Encode.list enc xs) ++ rest) J := by
  have hsmall : ∀ n ∈ Payload.counted, n ≠ 0 ∧ n < 128 := by decide
  obtain ⟨hzero, hlarge⟩ := hsmall id.toNat hid.2
  have hxs : xs.length < 4294967296 := Nat.lt_of_le_of_lt hcount (by decide)
  refine step (fun h => hzero (congrArg UInt8.toNat h)) hlarge
    (fun _ => Reads.sectionItems ⟨hzero, hid⟩ hrank hlater hdata hxs) ?_ hrest
  rintro _ ⟨here, offset, rfl⟩
  obtain ⟨ctx', hok, hinv⟩ := hcheck here offset
  refine ⟨ctx', ?_, hinv⟩
  show (Items.checkSection ctx id.toNat xs.length here ⟨offset, xs.flatMap enc⟩ >>= _) = _
  rw [hok]
  rfl

/-- **The code section passes, and then the rest does.** -/
theorem code {bs : List FuncBody} (hlater : p.rank < 12) (hfunctions : p.functions = some bs.length)
    (hcount : bs.length ≤ ModuleContext.itemLimit)
    (hrest : ∀ contents, contents.map Slice.bytes = bs.map Encode.bodyContent →
      Remains limit { p with rank := 12, bodies := some bs.length } { ctx with bodies := contents } rest J) :
    Remains (limit + 1) p ctx (Encode.sect 10 (Encode.list Encode.body bs) ++ rest) J := by
  have hbs : bs.length < 4294967296 := Nat.lt_of_le_of_lt hcount (by decide)
  refine step (C := fun ctx' => ∃ contents, ctx' = { ctx with bodies := contents } ∧
      contents.map Slice.bytes = bs.map Encode.bodyContent) (by decide) (by decide)
    (Reads.sectionCode hlater hfunctions hbs) ?_ ?_
  · rintro _ ⟨contents, rfl, hcontents⟩
    exact ⟨_, rfl, contents, rfl, hcontents⟩
  · rintro _ ⟨contents, rfl, hcontents⟩
    exact hrest contents hcontents

/-- **A module ends,** and its bodies are left to check. -/
theorem finish (hp : p.mismatch? = none) (hjobs : J (Inspection.jobsOf ctx)) :
    Remains (limit + 1) p ctx [] J := by
  intro _ offset
  refine ⟨⟨none, [], ctx.types, .empty, Inspection.jobsOf ctx⟩, ?_, hjobs⟩
  rw [Payload.foldM_upTo (Frame.next_finish hp offset) rfl]
  cases limit <;> rfl

end Remains

/-! ## Modules -/

/-- **Checks of a list pass** if each does. -/
theorem forM_eq_ok {ε α : Type} {f : α → Except ε Unit} :
    {as : List α} → (∀ a ∈ as, f a = .ok ()) → as.forM f = .ok ()
  | [], _ => rfl
  | a :: as, h => by
    obtain ⟨ha, has⟩ := List.forall_mem_cons.1 h
    show (f a >>= fun _ => as.forM f) = _
    rw [ha]
    exact forM_eq_ok has

namespace Module

variable {m : Module}

/-- **A body is smaller than its module.** -/
theorem bodyContent_lt (hl : m.IsWithinLimits) {b : FuncBody} (hb : b ∈ m.bodies) :
    (Encode.bodyContent b).length < 4294967296 := by
  have hbody : (Encode.bodyContent b).length ≤ (Encode.body b).length := Encode.length_le_sized _
  have hbodies : (Encode.body b).length ≤ (m.bodies.flatMap Encode.body).length := by
    rw [List.flatMap_def]
    exact (List.sublist_flatten_of_mem (List.mem_map_of_mem hb)).length_le
  have hlist : (m.bodies.flatMap Encode.body).length ≤ (Encode.list Encode.body m.bodies).length := by
    rw [Encode.list, List.length_append]
    exact Nat.le_add_left ..
  have hsect := Encode.length_le_sect 10 (Encode.list Encode.body m.bodies)
  have hsize := hl.size
  rw [Module.encode, List.length_append, List.length_append] at hsize
  omega

/-- **The data is smaller than its module.** -/
theorem data_lt (hl : m.IsWithinLimits) : m.data.length < 4294967296 := by
  have hdata := Encode.length_le_sized m.data
  have hsegment : (Encode.sized m.data).length ≤ (Encode.list Encode.segment [m.data]).length := by
    rw [Encode.list, List.flatMap_singleton, Encode.segment, List.length_append, List.length_append]
    omega
  have hsect := Encode.length_le_sect 11 (Encode.list Encode.segment [m.data])
  have hsize := hl.size
  rw [Module.encode, List.length_append] at hsize
  omega

/-- **The bodies of a well-formed module pass,** over all that it declares. -/
theorem checkBodies {space : TypeSpace} (hspace : space.Holds m.types) (hl : m.IsWithinLimits)
    (hw : m.WellFormed) {ctx : ModuleContext} {contents : List Slice}
    (h : ctx.Has space (m.givenWithBodies contents))
    (hcontents : contents.map Slice.bytes = m.bodies.map Encode.bodyContent) :
    ∀ job ∈ Inspection.jobsOf ctx, Validate.body job.declarations job.signature job.content = .ok () := by
  have hprovides : ctx.declarations.Provides m.spaces := provides hspace hw h rfl rfl
  intro job hjob
  obtain ⟨⟨s, content⟩, hmem, rfl⟩ := List.mem_map.1 hjob
  rw [h.defined, h.bodies] at hmem
  -- Pairs of signatures and contents are those of functions and bodies.
  have hpair : (s, content.bytes) ∈
      ((m.functions.map m.typeAt).map FuncType.signature).zip (m.bodies.map Encode.bodyContent) := by
    rw [← hcontents, List.zip_map_right]
    exact List.mem_map.2 ⟨(s, content), hmem, rfl⟩
  rw [List.map_map, List.zip_map] at hpair
  obtain ⟨⟨t, b⟩, htb, heq⟩ := List.mem_map.1 hpair
  obtain ⟨rfl, hbytes⟩ := Prod.mk.inj heq
  exact Validate.body_eq_ok hl (hw.bodies _ htb) (hl.locals _ htb) hprovides hbytes.symm
    (bodyContent_lt hl (List.of_mem_zip htb).2)

/-- The bytes of a module behind the header. -/
def sections (m : Module) : Bytes :=
  Encode.sect 1 (Encode.list Encode.funcType m.types)
    ++ (Encode.sect 2 (Encode.list Encode.importEntry m.imports)
    ++ (Encode.sect 3 (Encode.list Leb128.unsigned m.functions)
    ++ (Encode.sect 6 (Encode.list Encode.globalDef m.globals)
    ++ (Encode.sect 7 (Encode.list Encode.exportEntry m.exports)
    ++ (Encode.sect 10 (Encode.list Encode.body m.bodies)
    ++ (Encode.sect 11 (Encode.list Encode.segment [m.data]) ++ []))))))

/-- **A module is written as the header and its sections.** -/
theorem encode_eq (m : Module) : m.encode = Encode.header ++ m.sections := by
  simp only [encode, sections, List.append_assoc, List.append_nil]

/-- **A check of the bytes of a module** goes on with its sections behind the header, and has room for them. -/
theorem foldM_ofBytes {α : Type} {check : α → Payload → Except Rejection α} {a b : α}
    (hcheck : check a (.version .module 0) = .ok b) (m : Module) :
    Payload.foldM check a (Payload.ofBytes m.encode) =
      Payload.foldM check b (Payload.upTo (2 * m.sections.length + 9 + 8) [.inModule .start 8 m.sections]) := by
  have hlength : m.encode.length = 8 + m.sections.length := by
    rw [encode_eq, List.length_append]
    rfl
  have hlimit : 2 * m.encode.length + 2 = 2 * m.sections.length + 9 + 8 + 1 := by omega
  rw [Payload.ofBytes, hlimit, encode_eq, Payload.foldM_upTo (Frame.next_header m.sections) hcheck]

/-- **All sections pass,** and leave bodies that do. -/
theorem remains (hl : m.IsWithinLimits) (hw : m.WellFormed) (limit : Nat) :
    Remains (limit + 8) .start (.start .empty) m.sections fun jobs =>
      ∀ job ∈ jobs, Validate.body job.declarations job.signature job.content = .ok () := by
  have hfunctions : m.functions.length ≤ ModuleContext.itemLimit :=
    Nat.le_trans (Nat.le_add_left ..) hl.allFunctions
  have hglobals : m.globals.length ≤ ModuleContext.itemLimit :=
    Nat.le_trans (Nat.le_add_left ..) hl.allGlobals
  have hbodies : m.bodies.length ≤ ModuleContext.itemLimit := hw.bodyCount ▸ hfunctions
  have hcounts : some m.functions.length = some m.bodies.length := congrArg some hw.bodyCount.symm
  refine .items (C := fun ctx => ∃ space, space.Holds m.types ∧ ctx.Has space (m.givenByImports []))
    (by decide) rfl (show 0 < 1 by decide) rfl hl.types (fun here offset => ?_) ?_
  · obtain ⟨ctx, space, hcheck, hspace, hctx⟩ := checkTypes hl here offset
    exact ⟨ctx, hcheck, space, hspace, hctx⟩
  rintro ctx ⟨space, hspace, hctx⟩
  refine .items (by decide) rfl (show 1 < 2 by decide) rfl hl.imports (checkImports hspace hl hw hctx)
    fun ctx hctx => ?_
  refine .items (by decide) rfl (show 2 < 3 by decide) rfl hfunctions (checkFunctions hspace hl hw hctx)
    fun ctx hctx => ?_
  refine .items (by decide) rfl (show 3 < 7 by decide) rfl hglobals (checkGlobals hspace hl hw hctx)
    fun ctx hctx => ?_
  refine .items (by decide) rfl (show 7 < 8 by decide) rfl hl.exports (checkExports hspace hl hw hctx)
    fun ctx hctx => ?_
  refine .code (show 8 < 12 by decide) hcounts hbodies fun contents hcontents => ?_
  have hctx' : ModuleContext.Has { ctx with bodies := contents } space (m.givenWithBodies contents) :=
    ⟨hctx.types, hctx.functions, hctx.memories, hctx.globals, hctx.defined, hctx.exports, hctx.typeSize, rfl⟩
  refine .items (by decide) rfl (show 12 < 13 by decide) rfl (show 1 ≤ 1000000 by decide)
    (checkData hspace hl hw hctx' (data_lt hl)) fun ctx hctx => ?_
  refine .finish ?_ (checkBodies hspace hl hw hctx hcontents)
  show (if m.functions.length = m.bodies.length then none
    else some Violation.inconsistentCounts).or none = none
  rw [if_pos hw.bodyCount.symm]
  rfl

/-- **The bytes of a well-formed module are valid** if it is within the limits of the checker. -/
theorem validate_encode (hl : m.IsWithinLimits) (hw : m.WellFormed) : validate m.encode = .ok () := by
  have hsize := hl.size
  rw [encode_eq, List.length_append] at hsize
  obtain ⟨s, hfold, hjobs⟩ := remains hl hw (2 * m.sections.length + 9) (by omega) 8
  have hchecked : Payload.foldM Inspection.payload .start (Payload.ofBytes m.encode) = .ok s := by
    rw [foldM_ofBytes rfl]
    exact hfold
  unfold validate
  rw [hchecked]
  exact forM_eq_ok hjobs

end Module

end Wasm

/-! ## Assembled units -/

/-- **Emitted modules are valid.**  Whatever units have been assembled before, by whatever settings, the
check of bytes accepts the module of a unit that is assembled next, if the unit is well kinded and the
module is within the limits of the checker. -/
theorem Linked.checkModule_assemble {minPages : Nat} {units : List SourceUnit} {state next : LinkState}
    {config : Config} {u : SourceUnit} {scope : Scope} {a : Assembled}
    (h : Linked minPages units state) (hpages : minPages ≤ 65536)
    (hs : Scope.ofUnit state u = .ok scope) (hk : u.WellKinded state scope)
    (ha : assemble config state u = .ok (a, next)) (hl : a.code.IsWithinLimits) :
    checkModule a.name a.bytes = .ok () := by
  have hvalid : Wasm.validate a.bytes = .ok () := Wasm.Module.validate_encode hl (h.wellFormed hpages hs hk ha)
  unfold checkModule
  rw [hvalid]
  rfl

theorem Tally.checkModule_client :
    ∃ a next, assemble {} ((LinkState.base 16).extend counter) client = .ok (a, next) ∧
      checkModule a.name a.bytes = .ok () := by
  obtain ⟨a, next, ha, hl⟩ : ∃ a next,
      assemble {} ((LinkState.base 16).extend counter) client = .ok (a, next) ∧ a.code.IsWithinLimits :=
    ⟨_, _, rfl, by decide +kernel⟩
  have hscope : ∃ scope, Scope.ofUnit ((LinkState.base 16).extend counter) client = .ok scope ∧
      client.WellKinded ((LinkState.base 16).extend counter) scope :=
    ⟨_, rfl, List.forall_mem_singleton.2 (wellKinded (i := 1) rfl rfl),
      List.forall_mem_singleton.2 (by rintro _ ⟨⟩; exact ⟨_, rfl, rfl⟩)⟩
  obtain ⟨scope, hs, hk⟩ := hscope
  exact ⟨a, next, ha, linked_counter.checkModule_assemble (by decide) hs hk ha hl⟩

end WasmLowering
