import ModCatalog.Proofs.ClassFile.Members
import ModCatalog.Proofs.ClassFile.Unread
import ModCatalog.Proofs.ClassFile.Walk

/-!
# Bodies of methods

Class files whose methods have code that consists of instructions.  Indexing such a class is counting
one list of uses, those of its code and of its annotations, on top of what it declares.  So the class
is indexed unless one of them occurs too often to be counted, and but for the uses of annotations the
record counts the uses of its instructions, each as often as it occurs in the code of all methods.
-/

namespace ModCatalog.ClassFile

open Reading

/-! ## Methods with their code -/

/-- The instructions of the `Code` attributes among the attributes of a method. -/
inductive Bodies (pool : Pool) : List WrittenAttribute → List (List (Instr pool)) → Prop
  | nil : Bodies pool [] []
  | code {name : UInt16} (isCode : pool.utf8 name = .ok Index.codeAttribute)
      (stack locals : UInt16) {code : List (Instr pool)} (fitFrom : FitFrom 0 code)
      (behind : List UInt8)
      (fits : (WrittenAttribute.codeContent stack locals (layout code) behind).length < 2 ^ 32)
      {attributes : List WrittenAttribute} {bodies : List (List (Instr pool))}
      (rest : Bodies pool attributes bodies) :
      Bodies pool
        (⟨name, WrittenAttribute.codeContent stack locals (layout code) behind, fits⟩ :: attributes)
        (code :: bodies)
  | other {attr : WrittenAttribute} (isOther : pool.utf8 attr.name ≠ .ok Index.codeAttribute)
      {attributes : List WrittenAttribute} {bodies : List (List (Instr pool))}
      (rest : Bodies pool attributes bodies) : Bodies pool (attr :: attributes) bodies

/-- The code of a method. -/
structure MethodCode (pool : Pool) where
  inConstructor : Bool
  bodies : List (List (Instr pool))

namespace MethodCode

variable {pool : Pool}

/-- The instructions that count. -/
def counted (superClass : Option String) (code : MethodCode pool) : List (Instr pool) :=
  code.bodies.flatMap (ClassFile.counted superClass code.inConstructor)

/-- The uses of the instructions that count. -/
def uses (superClass : Option String) (code : MethodCode pool) : List Reference :=
  code.bodies.flatMap (usesOf superClass code.inConstructor)

theorem uses_eq (superClass : Option String) (code : MethodCode pool) :
    code.uses superClass = (code.counted superClass).flatMap Instr.references := by
  unfold uses counted usesOf
  rw [List.flatMap_assoc]

end MethodCode

/-- Whether a method has the given code. -/
structure WrittenMember.HasCode (pool : Pool) (member : WrittenMember) (code : MethodCode pool) :
    Prop where
  inConstructor :
    code.inConstructor = true ↔ pool.utf8 member.name = .ok Instruction.constructorName
  bodies : Bodies pool member.attributes code.bodies

/-- Whether a class has the given superclass and its methods, in their order, the given code. -/
structure WrittenClass.HasCode (file : WrittenClass) (superClass : Option String)
    (methods : List (MethodCode file.pool)) : Prop where
  superClass : file.pool.optionalClassName file.superClass = .ok superClass
  methods : List.Forall₂ (WrittenMember.HasCode file.pool) file.methods methods

theorem Opcode.isBare_return : isBare 0xb1 := rfl

/-! ## Uses and declarations -/

/-- What becomes of the table of a record depends on nothing else of it. -/
theorem ClassRecord.references_withUses {record other : ClassRecord}
    (h : other.references = record.references) (references : List Reference) :
    (other.withUses references).references = (record.withUses references).references := by
  induction references generalizing record other with
  | nil => exact h
  | cons first rest ih =>
      refine ih ?_
      simp only [setCount, uses, h]

namespace Draft

/-- A draft with another table of references. -/
def setTable (draft : Draft) (table : List (Reference × Nat)) : Draft :=
  { draft with record := { draft.record with references := table } }

theorem withUses_eq_setTable (draft : Draft) (references : List Reference) :
    draft.withUses references = draft.setTable (draft.record.withUses references).references :=
  congrArg (fun record => { draft with record := record }) (draft.record.withUses_eq references)

/-- Whether a change of drafts has nothing to do with the table of references. -/
def KeepsTable (change : Draft → Draft) : Prop :=
  ∀ draft table, change (draft.setTable table) = (change draft).setTable table

section KeepsTable

variable {change : Draft → Draft} (h : KeepsTable change)

include h

theorem KeepsTable.references (draft : Draft) :
    (change draft).record.references = draft.record.references := by
  have hsame : change draft = (change draft).setTable draft.record.references :=
    h draft draft.record.references
  rw [hsame]
  rfl

/-- Such a change can be made before uses are counted or after it. -/
theorem KeepsTable.use (draft : Draft) (references : List Reference) :
    (change draft).use references = (draft.use references).map change := by
  have hcan : (change draft).record.CanCount references ↔ draft.record.CanCount references := by
    simp only [ClassRecord.CanCount, ClassRecord.uses, h.references draft]
  have hcounted : (change draft).withUses references = change (draft.withUses references) := by
    rw [withUses_eq_setTable, withUses_eq_setTable, h,
      ClassRecord.references_withUses (h.references draft)]
  simp only [use_eq, hcan, hcounted]
  split <;> rfl

end KeepsTable

theorem keepsTable_declareField (field : MemberInfo) : KeepsTable (·.declareField field) :=
  fun _ _ => rfl

theorem keepsTable_declareMethod (method : MemberInfo) : KeepsTable (·.declareMethod method) :=
  fun _ _ => rfl

theorem keepsTable_declareAnnots (annots : List Annot) : KeepsTable (·.declareAnnots annots) :=
  fun _ _ => rfl

section Declare

variable {α : Type} {uses : α → List Reference} {declare : Draft → α → Draft}
  (h : ∀ item, KeepsTable (declare · item))

include h

theorem keepsTable_foldl (items : List α) : KeepsTable (items.foldl declare) := by
  intro draft table
  induction items generalizing draft with
  | nil => rfl
  | cons item rest ih =>
      have hfirst : declare (draft.setTable table) item = (declare draft item).setTable table :=
        h item draft table
      show rest.foldl declare (declare (draft.setTable table) item) = _
      rw [hfirst]
      exact ih (declare draft item)

/-- Items that are declared after their uses can be declared after the uses of all of them. -/
theorem foldlM_use (items : List α) (draft : Draft) :
    items.foldlM (fun draft item => (draft.use (uses item)).map (declare · item)) draft =
      (draft.use (items.flatMap uses)).map (items.foldl declare) := by
  induction items generalizing draft with
  | nil => rfl
  | cons item rest ih =>
      rw [List.foldlM_cons, List.flatMap_cons, use_append]
      cases draft.use (uses item) with
      | error defect => rfl
      | ok used =>
          rw [Except.map, ok_bind, ok_bind, ih, (h item).use]
          cases used.use (rest.flatMap uses) <;> rfl

end Declare

/-! Where uses are collected, those of annotations are counted in front of what is declared. -/

section

variable {draft : Draft} (h : draft.collects = true)

include h

theorem useAnnots_of_collects (target : Target) (annots : List Annot) :
    draft.useAnnots target annots = draft.use (annots.map (Reference.ofAnnot target)) := by
  rw [useAnnots, h]
  rfl

theorem addField_of_collects (field : MemberInfo) :
    draft.addField field =
      (draft.use (field.annots.map (Reference.ofAnnot .field))).map (·.declareField field) := by
  rw [addField, useAnnots_of_collects h]
  rfl

theorem addMethod_of_collects (method : MemberInfo) :
    draft.addMethod method =
      (draft.use (method.annots.map (Reference.ofAnnot .method))).map (·.declareMethod method) := by
  rw [addMethod, useAnnots_of_collects h]
  rfl

theorem addClassAnnots_of_collects (annots : List Annot) :
    draft.addClassAnnots annots =
      (draft.use (annots.map (Reference.ofAnnot .classFile))).map (·.declareAnnots annots) := by
  rw [addClassAnnots, useAnnots_of_collects h]
  rfl

end

end Draft

/-! ## Members with their uses -/

/-- The uses of the annotations of a field. -/
def MemberInfo.fieldUses (field : MemberInfo) : List Reference :=
  field.annots.map (Reference.ofAnnot .field)

/-- The uses of the code of a method and of its annotations. -/
def methodUses {pool : Pool} (superClass : Option String)
    (method : MemberInfo × MethodCode pool) : List Reference :=
  method.2.uses superClass ++ method.1.annots.map (Reference.ofAnnot .method)

section Members

variable {keep : String → Bool} {pool : Pool} {draft : Draft}

/-- Beside its annotations a method has the uses of its code. -/
theorem Bodies.visitAll {attributes : List WrittenAttribute} {bodies : List (List (Instr pool))}
    (h : Bodies pool attributes bodies) (method : String) {annots found : List Annot}
    (hfound : WrittenAttribute.visitAll pool (Index.addAnnots keep pool) attributes annots =
      .ok found) (draft : Draft) :
    WrittenAttribute.visitAll pool (Index.methodAttribute ⟨true, keep⟩ pool method) attributes
        (annots, draft) =
      (draft.use (bodies.flatMap
        (usesOf draft.rawSuper (method = Instruction.constructorName)))).map (found, ·) := by
  induction h generalizing annots draft with
  | nil =>
      cases hfound
      rfl
  | @code name isCode stack locals code fitFrom behind fits _ bodies _ ih =>
      have hcode : (layout code).length < 2 ^ 32 := by
        simp only [WrittenAttribute.codeContent, Writing.block, List.length_append] at fits
        omega
      rw [WrittenAttribute.visitAll_cons, WrittenAttribute.visit, isCode, ok_bind] at hfound ⊢
      rw [Index.addAnnots_code, ok_bind] at hfound
      have hwalked : Index.methodAttribute ⟨true, keep⟩ pool method Index.codeAttribute
          (WrittenAttribute.codeContent stack locals (layout code) behind) (annots, draft) =
            (draft.use (usesOf draft.rawSuper (method = Instruction.constructorName) code)).map
              (annots, ·) := by
        rw [← walk_layout draft _ fitFrom,
          ← Index.walkCode_codeContent pool _ stack locals hcode behind]
        rfl
      rw [hwalked, List.flatMap_cons, Draft.use_append]
      cases hused : draft.use (usesOf draft.rawSuper (method = Instruction.constructorName) code) with
      | error defect => rfl
      | ok used =>
          rw [← Draft.rawSuper_of_use hused]
          exact ih hfound used
  | @other attr isOther _ _ _ ih =>
      rw [WrittenAttribute.visitAll_cons] at hfound ⊢
      obtain ⟨next, hnext, hrest⟩ := bind_eq_ok.mp hfound
      obtain ⟨name, hname, hbody⟩ := bind_eq_ok.mp hnext
      have hne : name ≠ Index.codeAttribute := fun hsame => isOther (hsame ▸ hname)
      have hvisited : attr.visit pool (Index.methodAttribute ⟨true, keep⟩ pool method)
          (annots, draft) = .ok (next, draft) := by
        rw [WrittenAttribute.visit, hname, ok_bind]
        simp [Index.methodAttribute, hne, hbody, Except.map]
      rw [hvisited]
      exact ih hrest draft

theorem addField_of_info {member : WrittenMember} {info : MemberInfo}
    (hinfo : member.info keep pool = .ok info) (hcollects : draft.collects = true) :
    member.addField ⟨true, keep⟩ pool draft =
      (draft.use info.fieldUses).map (·.declareField info) := by
  rw [WrittenMember.addField, hinfo, ok_bind, Draft.addField_of_collects hcollects]
  rfl

theorem WrittenMember.HasCode.addMethod {member : WrittenMember} {code : MethodCode pool}
    (h : member.HasCode pool code) {info : MemberInfo} (hinfo : member.info keep pool = .ok info)
    (hcollects : draft.collects = true) :
    member.addMethod ⟨true, keep⟩ pool draft =
      (draft.use (methodUses draft.rawSuper (info, code))).map (·.declareMethod info) := by
  obtain ⟨⟨access, name, descriptor⟩, hhead, hinfo⟩ := bind_eq_ok.mp hinfo
  obtain ⟨found, hfound, hinfo⟩ := bind_eq_ok.mp hinfo
  cases hinfo
  have hconstructor : decide (name = Instruction.constructorName) = code.inConstructor := by
    obtain ⟨_, hname, hrest⟩ := bind_eq_ok.mp hhead
    obtain ⟨_, _, hrest⟩ := bind_eq_ok.mp hrest
    cases hrest
    rw [Bool.eq_iff_iff, decide_eq_true_iff, h.inConstructor, hname, Except.ok.injEq]
  rw [WrittenMember.addMethod, hhead, ok_bind, methodUses, Draft.use_append]
  dsimp only
  rw [h.bodies.visitAll name hfound draft, hconstructor]
  unfold MethodCode.uses
  cases hused : draft.use (code.bodies.flatMap (usesOf draft.rawSuper code.inConstructor)) with
  | error defect => rfl
  | ok used =>
      exact Draft.addMethod_of_collects ((Draft.collects_of_use hused).trans hcollects) _

end Members

/-! ## Classes with their uses -/

namespace WrittenClass

variable {keep : String → Bool} {file : WrittenClass} {parts : Parts}
  {codes : List (MethodCode file.pool)}

/-- The uses in a class, in the order in which they are counted: those of the annotations of its
fields, for each method those of its code and of its annotations, and those of the annotations of the
class. -/
def Parts.uses {pool : Pool} (parts : Parts) (codes : List (MethodCode pool)) : List Reference :=
  parts.fields.flatMap MemberInfo.fieldUses ++
    ((parts.methods.zip codes).flatMap (methodUses parts.superClass) ++
      parts.annots.map (Reference.ofAnnot .classFile))

theorem HasParts.foldlM_addField (h : file.HasParts keep parts) {draft : Draft}
    (hcollects : draft.collects = true) :
    file.fields.foldlM (WrittenMember.addField ⟨true, keep⟩ file.pool) draft =
      (draft.use (parts.fields.flatMap MemberInfo.fieldUses)).map
        (parts.fields.foldl Draft.declareField) := by
  rw [← Draft.foldlM_use Draft.keepsTable_declareField]
  refine foldlM_eq_of_forall₂ (fun draft => draft.collects = true) ?_ ?_ hcollects
  · exact h.fields.imp fun member info hinfo draft => addField_of_info hinfo
  · intro draft info next hdraft hnext
    obtain ⟨used, hused, rfl⟩ := map_eq_ok.mp hnext
    exact (Draft.collects_of_use hused).trans hdraft

theorem HasParts.foldlM_addMethod (h : file.HasParts keep parts)
    (hcode : file.HasCode parts.superClass codes) {draft : Draft} (hcollects : draft.collects = true)
    (hsuper : draft.rawSuper = parts.superClass) :
    file.methods.foldlM (WrittenMember.addMethod ⟨true, keep⟩ file.pool) draft =
      (draft.use ((parts.methods.zip codes).flatMap (methodUses parts.superClass))).map
        (parts.methods.foldl Draft.declareMethod) := by
  have hlength : parts.methods.length ≤ codes.length :=
    (h.methods.length_eq.symm.trans hcode.methods.length_eq).le
  have hdeclared : parts.methods.foldl Draft.declareMethod = fun draft =>
      (parts.methods.zip codes).foldl (fun draft found => draft.declareMethod found.1) draft := by
    funext draft
    rw [← List.foldl_map (f := Prod.fst), List.map_fst_zip hlength]
  rw [hdeclared]
  refine Eq.trans ?_ (Draft.foldlM_use (fun found : MemberInfo × MethodCode file.pool =>
    Draft.keepsTable_declareMethod found.1) _ _)
  refine foldlM_eq_of_forall₂
    (fun draft => draft.collects = true ∧ draft.rawSuper = parts.superClass)
    ((forall₂_and_zip h.methods hcode.methods).imp ?_) ?_ ⟨hcollects, hsuper⟩
  · rintro member ⟨info, code⟩ ⟨hinfo, hmember⟩ draft ⟨hcollects, hsuper⟩
    rw [hmember.addMethod hinfo hcollects, hsuper]
  · rintro draft found next ⟨hcollects, hsuper⟩ hnext
    obtain ⟨used, hused, rfl⟩ := map_eq_ok.mp hnext
    exact ⟨(Draft.collects_of_use hused).trans hcollects,
      (Draft.rawSuper_of_use hused).trans hsuper⟩

/-- A class is declared by counting its uses on top of its parts. -/
theorem HasParts.declared (h : file.HasParts keep parts)
    (hcode : file.HasCode parts.superClass codes) :
    file.declared ⟨true, keep⟩ parts.name =
      ((parts.draft true ⟨file.access⟩).use (parts.uses codes)).map Draft.record := by
  let start := Draft.start parts.name ⟨file.access⟩ parts.superClass parts.interfaces true
  have hsteps : file.declared ⟨true, keep⟩ parts.name = (do
      let draft ← file.fields.foldlM (WrittenMember.addField ⟨true, keep⟩ file.pool) start
      let draft ← file.methods.foldlM (WrittenMember.addMethod ⟨true, keep⟩ file.pool) draft
      return (← draft.addClassAnnots parts.annots).record) := by
    unfold WrittenClass.declared
    rw [h.superClass, h.interfaces, h.annots]
    rfl
  have hdraft : parts.draft true ⟨file.access⟩ = (parts.methods.foldl Draft.declareMethod
      (parts.fields.foldl Draft.declareField start)).declareAnnots parts.annots := rfl
  have hmethods := Draft.keepsTable_foldl Draft.keepsTable_declareMethod parts.methods
  have hannots := Draft.keepsTable_declareAnnots parts.annots
  rw [hsteps, h.foldlM_addField rfl, hdraft, Parts.uses, Draft.use_append, hannots.use, hmethods.use,
    (Draft.keepsTable_foldl Draft.keepsTable_declareField parts.fields).use]
  cases hused : start.use (parts.fields.flatMap MemberInfo.fieldUses) with
  | error defect => rfl
  | ok used =>
      have hcollects : (parts.fields.foldl Draft.declareField used).collects = true :=
        (Draft.collects_foldl_declareField used _).trans (Draft.collects_of_use hused)
      have hsuper : (parts.fields.foldl Draft.declareField used).rawSuper = parts.superClass :=
        (Draft.rawSuper_foldl_declareField used _).trans (Draft.rawSuper_of_use hused)
      rw [Except.map, Except.map, Except.map, ok_bind, ok_bind, Draft.use_append, hannots.use,
        hmethods.use, h.foldlM_addMethod hcode hcollects hsuper]
      cases hwalked : (parts.fields.foldl Draft.declareField used).use
        ((parts.methods.zip codes).flatMap (methodUses parts.superClass)) with
      | error defect => rfl
      | ok walked =>
          have hcollects : (parts.methods.foldl Draft.declareMethod walked).collects = true :=
            (Draft.collects_foldl_declareMethod walked _).trans
              ((Draft.collects_of_use hwalked).trans hcollects)
          rw [Except.map, Except.map, ok_bind, ok_bind, hannots.use,
            Draft.addClassAnnots_of_collects hcollects]
          cases Draft.use _ _ <;> rfl

/-- A class is indexed by counting its uses on top of the record of its parts. -/
theorem HasParts.indexed (h : file.HasParts keep parts)
    (hcode : file.HasCode parts.superClass codes) :
    file.indexed ⟨true, keep⟩ =
      ((parts.record ⟨file.access⟩).addReferences (parts.uses codes)).map some := by
  unfold WrittenClass.indexed
  rw [h.name, ok_bind, if_neg (Bool.eq_false_iff.mp h.isClass), h.declared hcode,
    ← Parts.record_draft true]
  unfold Draft.use
  cases (parts.draft true ⟨file.access⟩).record.addReferences (parts.uses codes) <;> rfl

/-- But for those of annotations, the uses in a class are those of its instructions that count. -/
theorem HasParts.count_uses (h : file.HasParts keep parts)
    (hcode : file.HasCode parts.superClass codes) {reference : Reference}
    (hkind : reference.kind ≠ .annotUse) :
    (parts.uses codes).count reference =
      ((codes.flatMap (MethodCode.counted parts.superClass)).flatMap
        Instr.references).count reference := by
  have hannots : ∀ target (annots : List Annot),
      (annots.map (Reference.ofAnnot target)).count reference = 0 := by
    intro target annots
    refine List.count_eq_zero_of_not_mem fun hmem => ?_
    obtain ⟨annot, -, rfl⟩ := List.mem_map.mp hmem
    exact hkind rfl
  have hcodes : (parts.methods.zip codes).map Prod.snd = codes :=
    List.map_snd_zip (hcode.methods.length_eq.symm.trans h.methods.length_eq).le
  have hcounted : codes.flatMap (MethodCode.uses parts.superClass) =
      (codes.flatMap (MethodCode.counted parts.superClass)).flatMap Instr.references := by
    rw [List.flatMap_assoc]
    exact List.flatMap_congr fun code _ => code.uses_eq parts.superClass
  rw [← hcounted]
  nth_rewrite 2 [← hcodes]
  unfold Parts.uses MemberInfo.fieldUses methodUses
  simp only [List.count_append, List.count_flatMap, Function.comp_def, hannots, List.map_map]
  simp

/-- A class that can be indexed without its code is indexed with it unless one of its uses occurs too
often, and then the uses of the instructions that count are counted. -/
theorem HasCode.index {superClass : Option String} (h : file.HasCode superClass codes)
    {bare : ClassRecord} (hbare : ClassFile.index ⟨false, keep⟩ file.bytes = .ok (some bare)) :
    ∃ parts, file.HasParts keep parts ∧
      (bare.CanCount (parts.uses codes) → ∃ record,
        ClassFile.index ⟨true, keep⟩ file.bytes = .ok (some record) ∧
        ∀ reference, reference.kind ≠ .annotUse → record.uses reference =
          ((codes.flatMap (MethodCode.counted superClass)).flatMap
            Instr.references).count reference) ∧
      (¬ bare.CanCount (parts.uses codes) →
        ClassFile.index ⟨true, keep⟩ file.bytes = .error .countTooGreat) := by
  rw [index_bytes] at hbare
  obtain ⟨parts, hparts, rfl⟩ := indexed_eq_some_iff.mp hbare
  have hsuper : superClass = parts.superClass :=
    Except.ok.inj (h.superClass.symm.trans hparts.superClass)
  subst hsuper
  rw [index_bytes, hparts.indexed h, ClassRecord.addReferences_eq]
  refine ⟨parts, hparts, fun hcan => ?_, fun hcannot => ?_⟩
  · rw [if_pos hcan]
    refine ⟨_, rfl, fun reference hkind => ?_⟩
    rw [ClassRecord.uses_withUses, hparts.count_uses h hkind]
    exact Nat.zero_add _
  · rw [if_neg hcannot]
    rfl

end WrittenClass

end ModCatalog.ClassFile
