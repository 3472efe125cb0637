import ModCatalog.Proofs.ClassFile.Collecting

/-!
# What is not read

Every attribute of a class file has its length in front, and attributes of two names alone are read.
Those of all other names can be put in, taken out and rewritten, as can all that follows the code of
a method, the version of the file and what stands behind it.  The file is indexed as before.
-/

namespace ModCatalog.ClassFile

open Reading

/-! ## Changes -/

namespace WrittenAttribute

/-- Whether an attribute has a name that is none of `names`. -/
def IsOther (pool : Pool) (names : List String) (attr : WrittenAttribute) : Prop :=
  ∃ name, pool.utf8 attr.name = .ok name ∧ name ∉ names

/-- The content of a `Code` attribute; behind the code stand its exception table and its own
attributes. -/
def codeContent (stack locals : UInt16) (code behind : List UInt8) : List UInt8 :=
  (Writing.u2 stack ++ Writing.u2 locals) ++ (Writing.block code ++ behind)

/-- Whether two lists of attributes are the same up to attributes whose names are none of `names` and
up to what stands behind the code of `Code` attributes. -/
inductive Alike (pool : Pool) (names : List String) :
    List WrittenAttribute → List WrittenAttribute → Prop
  | nil : Alike pool names [] []
  | same (attr : WrittenAttribute) {before after : List WrittenAttribute}
      (rest : Alike pool names before after) : Alike pool names (attr :: before) (attr :: after)
  | code {name : UInt16} (isCode : pool.utf8 name = .ok Index.codeAttribute)
      (stack locals : UInt16) (code : List UInt8) {behind other : List UInt8}
      (fits : (codeContent stack locals code behind).length < 2 ^ 32)
      (otherFits : (codeContent stack locals code other).length < 2 ^ 32)
      {before after : List WrittenAttribute} (rest : Alike pool names before after) :
      Alike pool names (⟨name, codeContent stack locals code behind, fits⟩ :: before)
        (⟨name, codeContent stack locals code other, otherFits⟩ :: after)
  | added {attr : WrittenAttribute} (isOther : attr.IsOther pool names)
      {before after : List WrittenAttribute} (rest : Alike pool names before after) :
      Alike pool names before (attr :: after)
  | removed {attr : WrittenAttribute} (isOther : attr.IsOther pool names)
      {before after : List WrittenAttribute} (rest : Alike pool names before after) :
      Alike pool names (attr :: before) after

/-- An attribute that is rewritten is one that is taken out and another that is put in. -/
theorem Alike.rewritten {pool : Pool} {names : List String} {attr : WrittenAttribute}
    (isOther : attr.IsOther pool names) (content : List UInt8) (fits : content.length < 2 ^ 32)
    {before after : List WrittenAttribute} (rest : Alike pool names before after) :
    Alike pool names (attr :: before) (⟨attr.name, content, fits⟩ :: after) :=
  have otherRewritten : IsOther pool names ⟨attr.name, content, fits⟩ := isOther
  .removed isOther (.added otherRewritten rest)

end WrittenAttribute

/-- Whether two members declare the same but for attributes as above. -/
structure WrittenMember.Alike (pool : Pool) (names : List String)
    (member changed : WrittenMember) : Prop where
  access : changed.access = member.access
  name : changed.name = member.name
  descriptor : changed.descriptor = member.descriptor
  attributes : WrittenAttribute.Alike pool names member.attributes changed.attributes

/-- Whether a class file was changed in nothing but its version, the attributes that are not read,
what stands behind the code of its methods, and what stands behind the class. -/
structure WrittenClass.Alike (file changed : WrittenClass) : Prop where
  pool : changed.pool = file.pool
  access : changed.access = file.access
  name : changed.name = file.name
  superClass : changed.superClass = file.superClass
  interfaces : changed.interfaces = file.interfaces
  fields : List.Forall₂ (WrittenMember.Alike file.pool [Index.annotAttribute])
    file.fields changed.fields
  methods : List.Forall₂
    (WrittenMember.Alike file.pool [Index.annotAttribute, Index.codeAttribute])
    file.methods changed.methods
  attributes : WrittenAttribute.Alike file.pool [Index.annotAttribute]
    file.attributes changed.attributes

/-! ## What attributes are read for -/

/-- Whether attributes are read only under some names, and `Code` up to the end of the code. -/
structure Index.ReadsOnly {σ : Type} (names : List String)
    (body : String → List UInt8 → σ → Except Defect σ) : Prop where
  other : ∀ name content state, name ∉ names → body name content state = .ok state
  code : ∀ stack locals code behind other, code.length < 2 ^ 32 →
    body Index.codeAttribute (WrittenAttribute.codeContent stack locals code behind) =
      body Index.codeAttribute (WrittenAttribute.codeContent stack locals code other)

namespace Index

theorem readsOnly_addAnnots (keep : String → Bool) (pool : Pool) :
    ReadsOnly [annotAttribute] (addAnnots keep pool) where
  other name content annots hname := if_neg fun h => hname (List.mem_singleton.mpr h)
  code _ _ _ _ _ _ := by
    funext annots
    rw [addAnnots_code, addAnnots_code]

theorem walkCode_codeContent (pool : Pool) (inConstructor : Bool) (stack locals : UInt16)
    {code : List UInt8} (hfits : code.length < 2 ^ 32) (behind : List UInt8) :
    walkCode pool inConstructor (WrittenAttribute.codeContent stack locals code behind) =
      Instruction.walk pool inConstructor code := by
  have hskip : (Writing.u2 stack ++ Writing.u2 locals).length = 4 := by simp
  have hreads : Reads (do skip 4; sizedBlock)
      ((Writing.u2 stack ++ Writing.u2 locals) ++ Writing.block code) code :=
    (reads_skip hskip).bind (reads_sizedBlock hfits)
  have hcode : runOn (do skip 4; sizedBlock)
      (WrittenAttribute.codeContent stack locals code behind) = .ok code := by
    rw [runOn, Cursor.start, WrittenAttribute.codeContent, ← List.append_assoc, hreads]
  funext draft
  rw [walkCode, hcode]
  rfl

theorem readsOnly_methodAttribute (options : IndexOptions) (pool : Pool) (method : String) :
    ReadsOnly [annotAttribute, codeAttribute] (methodAttribute options pool method) where
  other name content state hname := by
    obtain ⟨hannot, hcode⟩ : name ≠ annotAttribute ∧ name ≠ codeAttribute := by simpa using hname
    simp [methodAttribute, addAnnots, hannot, hcode, Except.map]
  code stack locals code behind other hfits := by
    funext state
    unfold methodAttribute
    rw [walkCode_codeContent _ _ stack locals hfits behind,
      walkCode_codeContent _ _ stack locals hfits other, addAnnots_code, addAnnots_code]

end Index

/-! ## Nothing else matters -/

namespace WrittenAttribute

variable {σ : Type} {pool : Pool} {names : List String}
  {body : String → List UInt8 → σ → Except Defect σ}

theorem visitAll_cons_of_isOther {attr : WrittenAttribute} (hbody : Index.ReadsOnly names body)
    (h : attr.IsOther pool names) (rest : List WrittenAttribute) :
    visitAll pool body (attr :: rest) = visitAll pool body rest := by
  obtain ⟨name, hname, hother⟩ := h
  funext state
  have hvisited : visit pool body state attr = .ok state := by
    rw [visit, hname]
    exact hbody.other name attr.content state hother
  rw [visitAll_cons, hvisited, ok_bind]

theorem visitAll_of_alike (hbody : Index.ReadsOnly names body)
    {before after : List WrittenAttribute} (h : Alike pool names before after) :
    visitAll pool body after = visitAll pool body before := by
  induction h with
  | nil => rfl
  | same attr _ ih =>
      funext state
      rw [visitAll_cons, visitAll_cons, ih]
  | code isCode stack locals code fits _ _ ih =>
      have hcode : code.length < 2 ^ 32 := by
        simp only [codeContent, Writing.block, List.length_append] at fits
        omega
      funext state
      rw [visitAll_cons, visitAll_cons, ih, visit, visit, isCode, ok_bind, ok_bind,
        hbody.code stack locals code _ _ hcode]
  | added isOther _ ih => rw [visitAll_cons_of_isOther hbody isOther, ih]
  | removed isOther _ ih => rw [visitAll_cons_of_isOther hbody isOther, ih]

end WrittenAttribute

namespace WrittenMember

variable {pool : Pool} {member changed : WrittenMember}

theorem Alike.head {names : List String} (h : member.Alike pool names changed) :
    changed.head pool = member.head pool := by
  rw [WrittenMember.head, WrittenMember.head, h.access, h.name, h.descriptor]

theorem Alike.addField (options : IndexOptions)
    (h : member.Alike pool [Index.annotAttribute] changed) (draft : Draft) :
    changed.addField options pool draft = member.addField options pool draft := by
  rw [WrittenMember.addField, WrittenMember.addField, info, info, h.head,
    WrittenAttribute.visitAll_of_alike (Index.readsOnly_addAnnots _ pool) h.attributes]

theorem Alike.addMethod (options : IndexOptions)
    (h : member.Alike pool [Index.annotAttribute, Index.codeAttribute] changed) (draft : Draft) :
    changed.addMethod options pool draft = member.addMethod options pool draft := by
  rw [WrittenMember.addMethod, WrittenMember.addMethod, h.head]
  refine bind_congr fun head => ?_
  dsimp only
  rw [WrittenAttribute.visitAll_of_alike
    (Index.readsOnly_methodAttribute options pool head.2.1) h.attributes]

end WrittenMember

namespace WrittenClass

theorem Alike.indexed (options : IndexOptions) {file changed : WrittenClass}
    (h : file.Alike changed) : changed.indexed options = file.indexed options := by
  have hfields := foldlM_of_forall₂ (h.fields.imp fun _ _ => WrittenMember.Alike.addField options)
  have hmethods := foldlM_of_forall₂
    (h.methods.imp fun _ _ => WrittenMember.Alike.addMethod options)
  have hattributes := WrittenAttribute.visitAll_of_alike
    (Index.readsOnly_addAnnots options.keepAnnot file.pool) h.attributes
  unfold WrittenClass.indexed declared
  simp only [h.pool, h.access, h.name, h.superClass, h.interfaces, hfields, hmethods, hattributes]

end WrittenClass

/-- What is not read does not matter.  Two class files are indexed alike of which one is the other
with attributes put in, taken out or rewritten whose names are not read, with another exception table
and other attributes behind the code of its methods, another version, and other bytes behind the
class; and bytes that are indexed as a class are those of a class file. -/
theorem index_of_alike (options : IndexOptions) :
    (∀ bytes record, index options bytes = .ok (some record) →
        ∃ file : WrittenClass, file.bytes = bytes) ∧
      ∀ file changed : WrittenClass, file.Alike changed →
        index options changed.bytes = index options file.bytes := by
  refine ⟨fun _ _ h => WrittenClass.exists_of_index h, fun file changed h => ?_⟩
  rw [WrittenClass.index_bytes, WrittenClass.index_bytes, h.indexed options]

/-- A class file with another version, one more attribute of a field, an exception table behind the
code of a method, a rewritten attribute of the class, and a byte behind the class. -/
def changedSample : WrittenClass :=
  { WrittenClass.sample with
    minor := 3
    major := 61
    fields := [⟨2, 6, 7, [⟨10, [1, 2], by decide⟩, WrittenClass.sampleAnnots], by decide⟩]
    methods := [⟨1, 3, 4, [⟨5, WrittenAttribute.codeContent 1 1 [0x12, 2, 0xb1]
      [0, 1, 0, 0, 0, 3, 0, 0, 0, 2, 0, 0], by decide⟩], by decide⟩]
    attributes := [⟨10, [7], by decide⟩]
    trailing := [0xff]
    fieldsFit := by decide
    methodsFit := by decide
    attributesFit := by decide }

theorem sample_alike : WrittenClass.sample.Alike changedSample where
  pool := rfl
  access := rfl
  name := rfl
  superClass := rfl
  interfaces := rfl
  fields := by
    refine .cons ⟨rfl, rfl, rfl, ?_⟩ .nil
    exact .added ⟨"Deprecated", by with_unfolding_all rfl, by decide⟩ (.same _ .nil)
  methods := by
    refine .cons ⟨rfl, rfl, rfl, ?_⟩ .nil
    exact .code (by with_unfolding_all rfl) 1 1 [0x12, 2, 0xb1] (by decide) (by decide) .nil
  attributes :=
    .rewritten ⟨"Deprecated", by with_unfolding_all rfl, by decide⟩ [7] (by decide) .nil

theorem index_changedSample :
    WrittenClass.sample.Alike changedSample ∧
      index .standard WrittenClass.sample.bytes = .ok (some WrittenClass.sampleRecord) ∧
      index .standard changedSample.bytes = .ok (some WrittenClass.sampleRecord) := by
  obtain ⟨-, hsame⟩ := index_of_alike .standard
  exact ⟨sample_alike, WrittenClass.index_sample,
    (hsame WrittenClass.sample changedSample sample_alike).trans WrittenClass.index_sample⟩

end ModCatalog.ClassFile
