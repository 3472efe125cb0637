import ModCatalog.Proofs.ClassFile.MethodBodies
import ModCatalog.Proofs.ClassFile.TypeNames

/-!
# Signatures of methods

The arguments of a method descriptor are those of the signature it was written for, unless the name
of a class among them holds a closing parenthesis; then the descriptor is refused.  A call of a
method that is not refused is an instruction, and beside the method it uses the classes of its
arguments.
-/

namespace ModCatalog.ClassFile

open Descriptor Instruction Reading

/-- The arguments of a method, with what stands behind them in its descriptor. -/
structure Signature where
  arguments : List FieldType
  result : String

namespace Signature

/-- The descriptor of a method. -/
def text (signature : Signature) : String :=
  "(" ++ String.join (signature.arguments.map FieldType.text) ++ ")" ++ signature.result

/-- Whether no name of a class among the arguments holds a closing parenthesis. -/
def IsPlain (signature : Signature) : Prop :=
  ∀ type ∈ signature.arguments, ∀ name ∈ type.element?, ')' ∉ name.chars

end Signature

/-- The calls of a method by the bytes of their instructions. -/
inductive IsCallOf (index : UInt16) : List UInt8 → Prop
  | call (opcode : UInt8) (h : Opcode.isCall opcode) : IsCallOf index (opcode :: Writing.u2 index)
  | interfaceCall (words : UInt8) : IsCallOf index (0xb9 :: (Writing.u2 index ++ [words, 0]))

/-! ## Descriptors of signatures -/

/-- Field types in front of a closing parenthesis are told by the text. -/
theorem flatten_close_inj {types others : List (List Char)}
    (htypes : ∀ type ∈ types, IsFieldType type) (hothers : ∀ type ∈ others, IsFieldType type)
    {rest behind : List Char} (h : types.flatten ++ ')' :: rest = others.flatten ++ ')' :: behind) :
    types = others := by
  have hclose : ∀ text, fieldType? (')' :: text) = none := fun _ => rfl
  induction types generalizing others with
  | nil =>
      cases others with
      | nil => rfl
      | cons other others =>
          have hread := (hothers other List.mem_cons_self).fieldType?_append
            (others.flatten ++ ')' :: behind)
          rw [← List.append_assoc, ← List.flatten_cons, ← h, List.flatten_nil, List.nil_append,
            hclose] at hread
          cases hread
  | cons type types ih =>
      obtain ⟨htype, hrest⟩ := List.forall_mem_cons.mp htypes
      have hread := htype.fieldType?_append (types.flatten ++ ')' :: rest)
      rw [← List.append_assoc, ← List.flatten_cons, h] at hread
      cases others with
      | nil =>
          rw [List.flatten_nil, List.nil_append, hclose] at hread
          cases hread
      | cons other others =>
          obtain ⟨hother, hbehind⟩ := List.forall_mem_cons.mp hothers
          rw [List.flatten_cons, List.append_assoc, hother.fieldType?_append] at hread
          obtain ⟨rfl, hsame⟩ := Prod.mk.inj (Option.some.inj hread)
          rw [ih hrest hbehind hsame.symm]

/-- A closing parenthesis in a type stands in the name of a class. -/
theorem FieldType.close_not_mem_chars_iff (type : FieldType) :
    ')' ∉ type.chars ↔ ∀ name ∈ type.element?, ')' ∉ name.chars := by
  induction type with
  | primitive type => cases type <;> simp [chars, element?, PrimitiveType.letter]
  | classType name => simp [chars, element?]
  | array element ih => simpa [chars, element?] using ih

namespace Signature

theorem toList_text (signature : Signature) :
    signature.text.toList = '(' :: ((signature.arguments.map FieldType.chars).flatten ++
      ')' :: signature.result.toList) := by
  simp [text, FieldType.text, String.toList_join, List.flatMap_def, List.map_map,
    Function.comp_def]

/-- By the grammar a descriptor has the arguments of its signature and no others. -/
theorem hasArguments_text_iff (signature : Signature) {arguments : List String} :
    HasArguments signature.text arguments ↔
      signature.IsPlain ∧ arguments = signature.arguments.map FieldType.text := by
  have hchars : (signature.arguments.map FieldType.text).map String.toList =
      signature.arguments.map FieldType.chars := by
    rw [List.map_map]
    exact List.map_congr_left fun type _ => String.toList_ofList
  rw [hasArguments_iff, argumentTypes?_eq_some_iff, signature.toList_text]
  constructor
  · rintro ⟨htypes, result, h⟩
    have hsame : signature.arguments.map FieldType.chars = arguments.map String.toList :=
      flatten_close_inj (List.forall_mem_map.mpr fun type _ => type.isFieldType_chars)
        (fun type htype => (htypes type htype).1) (List.cons.inj h).2
    refine ⟨fun type htype => ?_, ?_⟩
    · rw [← hsame] at htypes
      exact type.close_not_mem_chars_iff.mp (htypes _ (List.mem_map_of_mem htype)).2
    · rw [← hchars] at hsame
      exact List.map_injective_iff.mpr (fun _ _ => String.toList_inj.mp) hsame.symm
  · rintro ⟨hplain, rfl⟩
    rw [hchars]
    refine ⟨List.forall_mem_map.mpr fun type htype => ⟨type.isFieldType_chars, ?_⟩, _, rfl⟩
    exact type.close_not_mem_chars_iff.mpr (hplain type htype)

theorem methodArguments_text (signature : Signature) (h : signature.IsPlain) :
    methodArguments signature.text = .ok (signature.arguments.map FieldType.text) :=
  methodArguments_eq_ok_iff.mpr (signature.hasArguments_text_iff.mpr ⟨h, rfl⟩)

theorem methodArguments_refused (signature : Signature) (h : ¬ signature.IsPlain) :
    methodArguments signature.text = .error (.methodDescriptor signature.text) :=
  methodArguments_of_forall_not fun _ harguments =>
    h (signature.hasArguments_text_iff.mp harguments).1

theorem arguments_of_methodArguments {signature : Signature} {arguments : List String}
    (h : methodArguments signature.text = .ok arguments) :
    arguments = signature.arguments.map FieldType.text :=
  (signature.hasArguments_text_iff.mp (methodArguments_eq_ok_iff.mp h)).2

end Signature

/-! ## Calls -/

/-- Opcodes of calls are those of no other instructions. -/
theorem Opcode.other_of_isCall : ∀ opcode : UInt8, isCall opcode ∨ opcode = 0xb9 →
    ¬ (isBare opcode ∨ isLocal opcode ∨ isBranch opcode ∨ isBranchFar opcode ∨ isField opcode ∨
      isOfClass opcode ∨
      opcode ∈ [0x10, 0x11, 0x12, 0x13, 0x14, 0x84, 0xaa, 0xab, 0xba, 0xbc, 0xc4, 0xc5]) :=
  forall_byte (by decide +kernel)

theorem Writing.u2_append_inj {word other : UInt16} {rest behind : List UInt8}
    (h : Writing.u2 word ++ rest = Writing.u2 other ++ behind) : word = other := by
  have hword := Reading.reads_u2 word rest 0
  rw [h, Reading.reads_u2 other behind 0] at hword
  exact (Except.ok.inj (Prod.mk.inj hword).1).symm

section Calls

variable {pool : Pool}

/-- The method that an instruction calls. -/
def Instr.called? : Instr pool → Option (NamedMethod pool)
  | call _ _ named => some named
  | interfaceCall named _ => some named
  | _ => none

theorem Instr.exists_called {instr : Instr pool} {index : UInt16}
    (h : IsCallOf index instr.bytes) :
    ∃ named, instr.called? = some named ∧ named.index = index := by
  obtain ⟨hopcode, more, hoperands⟩ : (Opcode.isCall instr.opcode ∨ instr.opcode = 0xb9) ∧
      ∃ more, instr.operands = Writing.u2 index ++ more := by
    unfold Instr.bytes at h
    generalize instr.opcode = opcode at h
    generalize instr.operands = operands at h
    cases h with
    | call _ hcall => exact ⟨.inl hcall, [], (List.append_nil _).symm⟩
    | interfaceCall words => exact ⟨.inr rfl, _, rfl⟩
  have hother := Opcode.other_of_isCall _ hopcode
  cases instr with
  | call opcode _ named =>
      rw [← List.append_nil (operands _)] at hoperands
      exact ⟨named, rfl, Writing.u2_append_inj hoperands⟩
  | interfaceCall named words => exact ⟨named, rfl, Writing.u2_append_inj hoperands⟩
  | bare _ hgroup | atLocal _ hgroup _ | branch _ hgroup _ | branchFar _ hgroup _
  | field _ hgroup _ | ofClass _ hgroup _ => exact absurd (by simp [opcode, hgroup]) hother
  | _ => exact absurd (by simp [opcode]) hother

theorem Instr.references_of_called? {instr : Instr pool} {named : NamedMethod pool}
    (h : instr.called? = some named) :
    instr.references =
      .ofCall named.method :: named.arguments.filterMap Reference.ofArgument? := by
  cases instr <;> cases h <;> rfl

variable {index : UInt16} {owner name : String} {signature : Signature}

/-- Whatever instruction calls a method, it uses the method and the classes of its arguments. -/
theorem references_of_isCallOf
    (resolves : pool.methodRef index = .ok ⟨owner, name, signature.text⟩) {instr : Instr pool}
    (h : IsCallOf index instr.bytes) :
    instr.references = ⟨owner, name ++ signature.text, .method⟩ ::
      signature.arguments.filterMap FieldType.parameter? := by
  obtain ⟨named, hcalled, rfl⟩ := instr.exists_called h
  have hmethod : named.method = ⟨owner, name, signature.text⟩ :=
    Except.ok.inj (named.resolves.symm.trans resolves)
  have haccepted := named.accepted
  rw [hmethod] at haccepted
  rw [Instr.references_of_called? hcalled, hmethod,
    Signature.arguments_of_methodArguments haccepted, List.filterMap_map]
  refine congrArg _ (List.filterMap_congr fun type _ => ?_)
  exact Reference.ofArgument?_text type

theorem exists_instr_of_isCallOf
    (resolves : pool.methodRef index = .ok ⟨owner, name, signature.text⟩) (h : signature.IsPlain)
    {bytes : List UInt8} (hcall : IsCallOf index bytes) :
    ∃ instr : Instr pool, instr.bytes = bytes := by
  let named : NamedMethod pool :=
    ⟨index, ⟨owner, name, signature.text⟩, signature.arguments.map FieldType.text, resolves,
      signature.methodArguments_text h⟩
  cases hcall with
  | call opcode hopcode => exact ⟨.call opcode hopcode named, rfl⟩
  | interfaceCall words => exact ⟨.interfaceCall named words, rfl⟩

/-! ## Calls that are refused -/

theorem fst_runAt_bind_of_error {α β : Type} {reading : Reading α} {cursor : Cursor}
    {defect : Defect} (h : (runAt reading cursor).1 = .error defect) (next : α → Reading β) :
    (runAt (reading >>= next) cursor).1 = .error defect := by
  rw [runAt_bind]
  generalize runAt reading cursor = result at h
  obtain ⟨answer, after⟩ := result
  cases h
  rfl

theorem fst_runAt_bind_of_refused {α β γ : Type} {reading : Reading α} {cursor : Cursor}
    {first : Except Defect γ} {defect : Defect}
    (h : (runAt reading cursor).1 = first >>= fun _ => .error defect) (next : α → Reading β) :
    (runAt (reading >>= next) cursor).1 = first >>= fun _ => .error defect := by
  cases first <;> exact fst_runAt_bind_of_error h next

/-- The use of the method itself is counted before its descriptor is refused. -/
theorem addCall_refused (h : ¬ signature.IsPlain) (owner name : String) (draft : Draft) :
    draft.addCall ⟨owner, name, signature.text⟩ =
      draft.use [⟨owner, name ++ signature.text, .method⟩] >>= fun _ =>
        .error (.methodDescriptor signature.text) := by
  unfold Draft.addCall Draft.addArguments Reference.ofArguments
  rw [signature.methodArguments_refused h]
  rfl

section Refused

variable (resolves : pool.methodRef index = .ok ⟨owner, name, signature.text⟩)
  (h : ¬ signature.IsPlain)

include resolves h

/-- The walk stops at a call whose method has a descriptor that is refused. -/
theorem step_refused {bytes : List UInt8} (hcall : IsCallOf index bytes) (draft : Draft)
    (rest : List UInt8) (offset : Nat) :
    (runAt (step pool draft false) ⟨bytes ++ rest, offset⟩).1 =
      draft.use [⟨owner, name ++ signature.text, .method⟩] >>= fun _ =>
        .error (.methodDescriptor signature.text) := by
  have hrefused := addCall_refused h owner name draft
  unfold step
  cases hcall with
  | call opcode hopcode =>
      simp only [List.cons_append, runAt_bind, runAt_position, runAt_u1]
      rcases toNat_of_isCall hopcode with hop | hop | hop
      all_goals
        simp only [hop, runAt_bind, runAt_u2, resolves, runAt_ofExcept, hrefused,
          Bool.false_and, Bool.false_eq_true, if_false]
        cases draft.use [⟨owner, name ++ signature.text, .method⟩] <;> rfl
  | interfaceCall words =>
      have hop : (0xb9 : UInt8).toNat = 0xb9 := rfl
      simp only [List.cons_append, List.append_assoc, runAt_bind, runAt_position, runAt_u1, hop,
        runAt_u2, resolves, runAt_ofExcept, hrefused]
      cases draft.use [⟨owner, name ++ signature.text, .method⟩] <;> rfl

/-- The walk stops at such a call behind any instructions, if not at one of these. -/
theorem steps_refused {bytes : List UInt8} (hcall : IsCallOf index bytes) (rest : List UInt8)
    (count : Nat) (before : List (Instr pool)) (draft : Draft) (offset : Nat)
    (fits : FitFrom offset before) :
    (runAt (steps pool (before.length + (count + 1)) draft false)
        ⟨layout before ++ (bytes ++ rest), offset⟩).1 =
      draft.use (before.flatMap Instr.references ++
        [⟨owner, name ++ signature.text, .method⟩]) >>= fun _ =>
          .error (.methodDescriptor signature.text) := by
  induction before generalizing draft offset with
  | nil =>
      have hmore : (bytes ++ rest).isEmpty = false := by cases hcall <;> rfl
      have hstep := step_refused resolves h hcall draft rest offset
      rw [List.length_nil, Nat.zero_add, layout, List.flatMap_nil, List.nil_append,
        runAt_steps_succ draft false hmore]
      exact fst_runAt_bind_of_refused hstep _
  | cons instr before ih =>
      obtain ⟨hfits, hbefore⟩ := fits
      have hstep := step_instr draft false (layout before ++ (bytes ++ rest)) offset instr hfits
      have heffect : instr.effect draft.rawSuper false = (instr.references, false) := by
        simp [Instr.effect]
      rw [heffect] at hstep
      dsimp only at hstep
      rw [List.length_cons, Nat.add_right_comm, layout_cons, List.append_assoc,
        runAt_steps_succ draft false rfl, List.flatMap_cons, List.append_assoc, Draft.use_append]
      cases hused : draft.use instr.references with
      | error defect =>
          rw [hused] at hstep
          exact fst_runAt_bind_of_error (hstep.fails defect rfl) _
      | ok used =>
          rw [hused] at hstep
          rw [runAt_bind, hstep.reads _ rfl]
          exact ih used _ hbefore

/-- Outside constructors, code is refused that calls such a method: for the descriptor, unless a use
in front of it or that of the method itself occurs too often. -/
theorem walk_refused {bytes : List UInt8} (hcall : IsCallOf index bytes)
    (before : List (Instr pool)) (fits : FitFrom 0 before) (rest : List UInt8) (draft : Draft) :
    walk pool false (layout before ++ (bytes ++ rest)) draft = .error
      (if draft.record.CanCount (before.flatMap Instr.references ++
          [⟨owner, name ++ signature.text, .method⟩])
        then .methodDescriptor signature.text else .countTooGreat) := by
  have hbefore := length_le_layout before
  have hcount : ∃ count,
      (layout before ++ (bytes ++ rest)).length = before.length + (count + 1) := by
    have hbytes : 0 < bytes.length := by cases hcall <;> exact Nat.succ_pos _
    refine ⟨(layout before ++ (bytes ++ rest)).length - before.length - 1, ?_⟩
    simp only [List.length_append]
    omega
  obtain ⟨count, hcount⟩ := hcount
  unfold walk runOn
  rw [hcount, Cursor.start, steps_refused resolves h hcall rest count before draft 0 fits,
    Draft.use_eq]
  split <;> rfl

end Refused

end Calls

/-- The descriptor of a signature is understood if no name of a class among the arguments holds a
closing parenthesis, and else it is refused.  If it is understood, every call of a method of the
signature is an instruction, and a class file is indexed with it like with any other, unless one of
its uses occurs too often to be counted: of the classes of arguments it has, beside the uses of all
other instructions that count, one for each argument whose elements are neither primitive nor of the
root of all classes.  If it is refused, so is code that calls such a method. -/
theorem index_counts_arguments (signature : Signature) :
    (signature.IsPlain →
      methodArguments signature.text = .ok (signature.arguments.map FieldType.text)) ∧
    (¬ signature.IsPlain →
      methodArguments signature.text = .error (.methodDescriptor signature.text)) ∧
    (∀ (pool : Pool) index owner name, pool.methodRef index = .ok ⟨owner, name, signature.text⟩ →
      ∀ bytes, IsCallOf index bytes →
        (signature.IsPlain → ∃ instr : Instr pool, instr.bytes = bytes) ∧
        (¬ signature.IsPlain → ∀ (draft : Draft) (before : List (Instr pool)) rest,
          FitFrom 0 before →
          walk pool false (layout before ++ (bytes ++ rest)) draft = .error
            (if draft.record.CanCount (before.flatMap Instr.references ++
                [⟨owner, name ++ signature.text, .method⟩])
              then .methodDescriptor signature.text else .countTooGreat))) ∧
    ∀ keep (file : WrittenClass) superClass methods bare, file.HasCode superClass methods →
      index ⟨false, keep⟩ file.bytes = .ok (some bare) →
      ∃ parts, file.HasParts keep parts ∧
        (bare.CanCount (parts.uses methods) → ∃ record,
          index ⟨true, keep⟩ file.bytes = .ok (some record) ∧
          ∀ index owner name, file.pool.methodRef index = .ok ⟨owner, name, signature.text⟩ →
            ∀ front instr back,
              methods.flatMap (MethodCode.counted superClass) = front ++ instr :: back →
              IsCallOf index instr.bytes → ∀ reference, reference.kind = .parameter →
                record.uses reference =
                  ((front ++ back).flatMap Instr.references).count reference +
                    (signature.arguments.filterMap FieldType.parameter?).count reference) ∧
        (¬ bare.CanCount (parts.uses methods) →
          index ⟨true, keep⟩ file.bytes = .error .countTooGreat) := by
  refine ⟨signature.methodArguments_text, signature.methodArguments_refused, ?_, ?_⟩
  · intro pool index owner name resolves bytes hcall
    exact ⟨fun h => exists_instr_of_isCallOf resolves h hcall, fun h draft before rest fits =>
      walk_refused resolves h hcall before fits rest draft⟩
  · intro keep file superClass methods bare hcode hbare
    obtain ⟨parts, hparts, hcan, hcannot⟩ := hcode.index hbare
    refine ⟨parts, hparts, fun h => ?_, hcannot⟩
    obtain ⟨record, hrecord, huses⟩ := hcan h
    refine ⟨record, hrecord, ?_⟩
    intro index owner name resolves front instr back hsplit hcall reference hkind
    have hmethod : (⟨owner, name ++ signature.text, .method⟩ : Reference) ≠ reference := by
      rintro rfl
      cases hkind
    rw [huses reference (by rw [hkind]; decide), hsplit, List.flatMap_append, List.flatMap_cons,
      List.flatMap_append, references_of_isCallOf resolves hcall]
    simp only [List.count_append, List.count_cons_of_ne hmethod]
    omega

/-! ## Two calls -/

/-- A method whose descriptor is understood, and one whose descriptor is not. -/
def callsConstants : List WrittenConstant :=
  [.short "A", .classInfo 1, .short "m", .short "()V", .short "Code", .short "g",
    .short "(I[[Lp/C;Ljava/lang/Object;[JLp/C;)V", .nameAndType 6 7, .methodRef 2 8,
    .short "(La)b;)V", .nameAndType 6 10, .methodRef 2 11]

def callsPool : Pool := WrittenConstant.pool callsConstants

/-- A class with a method that has the given code. -/
def callsSample (code : List UInt8)
    (fits : (WrittenAttribute.codeContent 1 1 code [0, 0, 0, 0]).length < 2 ^ 32) : WrittenClass :=
  { WrittenClass.sample with
    poolBytes := WrittenConstant.poolBytes (WrittenConstant.width callsConstants + 1) callsConstants
    pool := callsPool
    readsPool := WrittenConstant.reads_read (by decide)
    fields := []
    methods := [⟨1, 3, 4, [⟨5, WrittenAttribute.codeContent 1 1 code [0, 0, 0, 0], fits⟩], by simp⟩]
    attributes := []
    fieldsFit := WrittenClass.length_nil_lt
    methodsFit := by simp
    attributesFit := WrittenClass.length_nil_lt }

def understoodSignature : Signature :=
  let root : ClassName :=
    ⟨[⟨['j', 'a', 'v', 'a'], by decide, by simp⟩, ⟨['l', 'a', 'n', 'g'], by decide, by simp⟩],
      ⟨['O', 'b', 'j', 'e', 'c', 't'], by decide, by simp⟩⟩
  ⟨[.primitive .int, .array (.array (.classType .sample)), .classType root,
    .array (.primitive .long), .classType .sample], "V"⟩

/-- A class name with a closing parenthesis among the arguments. -/
def refusedSignature : Signature :=
  ⟨[.classType ⟨[], ⟨['a', ')', 'b'], by decide, by simp⟩⟩], "V"⟩

/-- A call of the method whose descriptor is understood. -/
def understoodCode : List (Instr callsPool) :=
  [.call 0xb8 rfl
    ⟨9, ⟨"A", "g", "(I[[Lp/C;Ljava/lang/Object;[JLp/C;)V"⟩,
      ["I", "[[Lp/C;", "Ljava/lang/Object;", "[J", "Lp/C;"], by with_unfolding_all rfl, by cbv⟩,
    .bare 0xb1 Opcode.isBare_return]

theorem understoodSample_hasCode :
    (callsSample (layout understoodCode) (by decide)).HasCode none [⟨false, [understoodCode]⟩] where
  superClass := by with_unfolding_all rfl
  methods := by
    refine .cons ⟨?_, ?_⟩ .nil
    · have hname : callsPool.utf8 3 = .ok "m" := by with_unfolding_all rfl
      exact ⟨nofun, fun h => absurd (Except.ok.inj (hname.symm.trans h)) (by decide)⟩
    · exact .code (by with_unfolding_all rfl) 1 1
        (by simp [understoodCode, FitFrom, Instr.FitsAt]) [0, 0, 0, 0] (by decide) .nil

/-- The parts of the sample, whatever its code. -/
def callsParts : WrittenClass.Parts := ⟨"A", none, [], [], [⟨"m", "()V", ⟨1⟩, []⟩], []⟩

theorem understoodSample_hasParts (keep : String → Bool) :
    (callsSample (layout understoodCode) (by decide)).HasParts keep callsParts where
  name := by with_unfolding_all rfl
  isClass := by decide
  superClass := by with_unfolding_all rfl
  interfaces := rfl
  fields := .nil
  methods := .cons (by with_unfolding_all rfl) .nil
  annots := rfl

theorem index_understoodSample :
    understoodSignature.text = "(I[[Lp/C;Ljava/lang/Object;[JLp/C;)V" ∧
      understoodSignature.IsPlain ∧
      ∃ record, index .standard (callsSample (layout understoodCode) (by decide)).bytes =
          .ok (some record) ∧
        record.uses ⟨"p/C", "[[Lp/C;", .parameter⟩ = 1 ∧
        record.uses ⟨"p/C", "p/C", .parameter⟩ = 1 ∧
        record.uses ⟨"java/lang/Object", "java/lang/Object", .parameter⟩ = 0 := by
  have hplain : understoodSignature.IsPlain := by
    simp [understoodSignature, Signature.IsPlain, FieldType.element?, ClassName.sample,
      ClassName.chars]
  have hhas := understoodSample_hasParts IndexOptions.keepByDefault
  have hbare : index ⟨false, IndexOptions.keepByDefault⟩
      (callsSample (layout understoodCode) (by decide)).bytes =
        .ok (some (callsParts.record ⟨0x21⟩)) := by
    rw [WrittenClass.index_bytes]
    exact WrittenClass.indexed_eq_some_iff.mpr ⟨_, hhas, rfl⟩
  have hresolves : callsPool.methodRef 9 = .ok ⟨"A", "g", understoodSignature.text⟩ := by
    with_unfolding_all rfl
  obtain ⟨-, -, -, hcounts⟩ := index_counts_arguments understoodSignature
  obtain ⟨parts, hparts, hcan, -⟩ := hcounts _ _ _ _ _ understoodSample_hasCode hbare
  cases hparts.unique hhas
  have hlength : (callsParts.uses
      [(⟨false, [understoodCode]⟩ : MethodCode callsPool)]).length = 3 := by with_unfolding_all rfl
  have hfew : 3 ≤ ClassRecord.maxCount := by rw [ClassRecord.maxCount_eq]; decide
  obtain ⟨record, hrecord, huses⟩ :=
    hcan (ClassRecord.canCount_of_length_le rfl (hlength.le.trans hfew))
  have huses : ∀ reference : Reference, reference.kind = .parameter → record.uses reference =
      (understoodSignature.arguments.filterMap FieldType.parameter?).count reference := by
    intro reference hkind
    have hused := huses 9 "A" "g" hresolves [] _ [.bare 0xb1 rfl] rfl (.call 0xb8 rfl)
    exact (hused reference hkind).trans (Nat.zero_add _)
  refine ⟨rfl, hplain, record, hrecord, ?_, ?_, ?_⟩
  all_goals
    rw [huses _ rfl]
    decide

/-- A class is refused for a call of a method whose descriptor is legal. -/
theorem index_refusedSample :
    refusedSignature.text = "(La)b;)V" ∧
      index .standard (callsSample [0xb8, 0, 12, 0xb1] (by decide)).bytes =
        .error (.methodDescriptor "(La)b;)V") := by
  refine ⟨rfl, ?_⟩
  rw [WrittenClass.index_bytes]
  with_unfolding_all rfl

end ModCatalog.ClassFile
