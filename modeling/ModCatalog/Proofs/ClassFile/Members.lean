import Mathlib.Data.String.Basic
import ModCatalog.Proofs.ClassFile.Collecting
import ModCatalog.Proofs.Collection.Sorted

/-!
# The parts of class records

What is read of the parts of a class file, and the record that they make up.  Fields and methods are
kept under their keys, and every key has one entry: a later member with the key of an earlier one
takes its place.
-/

namespace ModCatalog

namespace ClassFile

/-! ## Declared members -/

namespace Draft

theorem foldl_declareField (draft : Draft) (fields : List MemberInfo) :
    fields.foldl declareField draft =
      { draft with record := { draft.record with
          fields := fields.foldl (fun table field => Sorted.insert field.name field table)
            draft.record.fields } } := by
  induction fields generalizing draft with
  | nil => rfl
  | cons field rest ih => exact ih (draft.declareField field)

theorem foldl_declareMethod (draft : Draft) (methods : List MemberInfo) :
    methods.foldl declareMethod draft =
      { draft with record := { draft.record with
          methods := methods.foldl
            (fun table method => Sorted.insert method.methodKey method table)
            draft.record.methods } } := by
  induction methods generalizing draft with
  | nil => rfl
  | cons method rest ih => exact ih (draft.declareMethod method)

@[simp] theorem collects_foldl_declareField (draft : Draft) (fields : List MemberInfo) :
    (fields.foldl declareField draft).collects = draft.collects := by
  rw [foldl_declareField]

@[simp] theorem rawSuper_foldl_declareField (draft : Draft) (fields : List MemberInfo) :
    (fields.foldl declareField draft).rawSuper = draft.rawSuper := by
  rw [foldl_declareField]

@[simp] theorem collects_foldl_declareMethod (draft : Draft) (methods : List MemberInfo) :
    (methods.foldl declareMethod draft).collects = draft.collects := by
  rw [foldl_declareMethod]

/-! Where nothing is collected, members are declared and nothing else. -/

section

variable {draft : Draft} (h : draft.collects = false)

include h

theorem useAnnots_of_not_collects (target : Target) (annots : List Annot) :
    draft.useAnnots target annots = .ok draft := by
  rw [useAnnots, h]
  rfl

theorem addField_of_not_collects (field : MemberInfo) :
    draft.addField field = .ok (draft.declareField field) := by
  rw [addField, useAnnots_of_not_collects h]
  rfl

theorem addMethod_of_not_collects (method : MemberInfo) :
    draft.addMethod method = .ok (draft.declareMethod method) := by
  rw [addMethod, useAnnots_of_not_collects h]
  rfl

theorem addClassAnnots_of_not_collects (annots : List Annot) :
    draft.addClassAnnots annots = .ok (draft.declareAnnots annots) := by
  rw [addClassAnnots, useAnnots_of_not_collects h]
  rfl

end

end Draft

namespace WrittenClass

/-- What is read of the parts of a class. -/
structure Parts where
  name : String
  superClass : Option String
  interfaces : List String
  fields : List MemberInfo
  methods : List MemberInfo
  annots : List Annot

/-- Whether the parts of a class file are read as `parts`. -/
structure HasParts (keep : String → Bool) (file : WrittenClass) (parts : Parts) : Prop where
  name : file.pool.className file.name = .ok parts.name
  isClass : Index.isDescription ⟨file.access⟩ parts.name = false
  superClass : file.pool.optionalClassName file.superClass = .ok parts.superClass
  interfaces : file.interfaces.mapM file.pool.className = .ok parts.interfaces
  fields : List.Forall₂ (fun member info => member.info keep file.pool = .ok info)
    file.fields parts.fields
  methods : List.Forall₂ (fun member info => member.info keep file.pool = .ok info)
    file.methods parts.methods
  annots : WrittenAttribute.visitAll file.pool (Index.addAnnots keep file.pool) file.attributes [] =
    .ok parts.annots

/-- A class file has its parts in one way. -/
theorem HasParts.unique {keep : String → Bool} {file : WrittenClass} {parts other : Parts}
    (h : file.HasParts keep parts) (hother : file.HasParts keep other) : parts = other := by
  obtain ⟨name, superClass, interfaces, fields, methods, annots⟩ := parts
  cases h.name.symm.trans hother.name
  cases h.superClass.symm.trans hother.superClass
  cases h.interfaces.symm.trans hother.interfaces
  cases (mapM_eq_ok.mpr h.fields).symm.trans (mapM_eq_ok.mpr hother.fields)
  cases (mapM_eq_ok.mpr h.methods).symm.trans (mapM_eq_ok.mpr hother.methods)
  cases h.annots.symm.trans hother.annots
  rfl

namespace Parts

/-- What the parts of a class make up, but for its references. -/
def draft (collects : Bool) (access : Access) (parts : Parts) : Draft :=
  let start := Draft.start parts.name access parts.superClass parts.interfaces collects
  (parts.methods.foldl Draft.declareMethod
    (parts.fields.foldl Draft.declareField start)).declareAnnots parts.annots

/-- The record of the parts of a class, but for its references. -/
def record (access : Access) (parts : Parts) : ClassRecord where
  name := parts.name
  access := access
  superClass := parts.superClass.filter (· ≠ Descriptor.object)
  interfaces := parts.interfaces
  annots := parts.annots
  fields := Sorted.ofList (parts.fields.map fun field => (field.name, field))
  methods := Sorted.ofList (parts.methods.map fun method => (method.methodKey, method))
  references := []

theorem record_draft (collects : Bool) (access : Access) (parts : Parts) :
    (parts.draft collects access).record = parts.record access := by
  unfold draft record Sorted.ofList
  dsimp only
  rw [Draft.foldl_declareField, Draft.foldl_declareMethod, List.foldl_map, List.foldl_map]
  rfl

end Parts

/-! ## Without references -/

section Bare

variable {keep : String → Bool} {pool : Pool} {draft : Draft} {member : WrittenMember}

theorem addField_of_not_collects (h : draft.collects = false) :
    member.addField ⟨false, keep⟩ pool draft = (member.info keep pool).map draft.declareField := by
  unfold WrittenMember.addField
  cases member.info keep pool with
  | error defect => rfl
  | ok info => exact Draft.addField_of_not_collects h info

/-- Without references nothing of code is read. -/
theorem visitAll_bare (method : String) (attributes : List WrittenAttribute) (annots : List Annot) :
    WrittenAttribute.visitAll pool (Index.methodAttribute ⟨false, keep⟩ pool method) attributes
        (annots, draft) =
      (WrittenAttribute.visitAll pool (Index.addAnnots keep pool) attributes annots).map
        (·, draft) := by
  induction attributes generalizing annots with
  | nil => rfl
  | cons attr rest ih =>
      have hfirst : WrittenAttribute.visit pool (Index.methodAttribute ⟨false, keep⟩ pool method)
          (annots, draft) attr =
            (WrittenAttribute.visit pool (Index.addAnnots keep pool) annots attr).map
              (·, draft) := by
        unfold WrittenAttribute.visit Index.methodAttribute
        simp only [Bool.and_false, Bool.false_eq_true, if_false]
        cases pool.utf8 attr.name <;> rfl
      rw [WrittenAttribute.visitAll_cons, WrittenAttribute.visitAll_cons, hfirst]
      cases WrittenAttribute.visit pool (Index.addAnnots keep pool) annots attr with
      | error defect => rfl
      | ok found => exact ih found

theorem addMethod_of_not_collects (h : draft.collects = false) :
    member.addMethod ⟨false, keep⟩ pool draft =
      (member.info keep pool).map draft.declareMethod := by
  unfold WrittenMember.addMethod WrittenMember.info
  simp only [visitAll_bare]
  cases member.head pool with
  | error defect => rfl
  | ok head =>
      rw [ok_bind, ok_bind]
      cases WrittenAttribute.visitAll pool (Index.addAnnots keep pool) member.attributes [] with
      | error defect => rfl
      | ok annots => exact Draft.addMethod_of_not_collects h _

end Bare

variable {keep : String → Bool} {file : WrittenClass}

/-- Members whose steps declare what is read of them. -/
theorem foldlM_declare {step : Draft → WrittenMember → Except Defect Draft}
    {declare : Draft → MemberInfo → Draft}
    (hstep : ∀ draft member, draft.collects = false →
      step draft member = (member.info keep file.pool).map (declare draft))
    (hdeclare : ∀ draft info, (declare draft info).collects = draft.collects)
    {draft : Draft} (hdraft : draft.collects = false) (members : List WrittenMember) :
    members.foldlM step draft =
      (members.mapM (WrittenMember.info keep file.pool)).map fun infos =>
        infos.foldl declare draft := by
  rw [← foldlM_map]
  refine foldlM_eq_of_forall₂ (fun draft => draft.collects = false)
    (List.forall₂_same.mpr fun member _ draft hdraft => hstep draft member hdraft) ?_ hdraft
  intro draft member next hdraft hnext
  obtain ⟨info, -, rfl⟩ := map_eq_ok.mp hnext
  rw [hdeclare, hdraft]

/-- Without its references a class is declared as the record of its parts. -/
theorem declared_eq (name : String) :
    file.declared ⟨false, keep⟩ name = (do
      let superClass ← file.pool.optionalClassName file.superClass
      let interfaces ← file.interfaces.mapM file.pool.className
      let fields ← file.fields.mapM (WrittenMember.info keep file.pool)
      let methods ← file.methods.mapM (WrittenMember.info keep file.pool)
      let annots ← WrittenAttribute.visitAll file.pool (Index.addAnnots keep file.pool)
        file.attributes []
      return Parts.record ⟨file.access⟩
        ⟨name, superClass, interfaces, fields, methods, annots⟩) := by
  unfold declared
  refine bind_congr fun superClass => bind_congr fun interfaces => ?_
  dsimp only
  rw [foldlM_declare (fun _ _ => addField_of_not_collects) (fun _ _ => rfl) rfl]
  cases file.fields.mapM (WrittenMember.info keep file.pool) with
  | error defect => rfl
  | ok fields =>
      have hcollects : (fields.foldl Draft.declareField
          (Draft.start name ⟨file.access⟩ superClass interfaces false)).collects = false :=
        Draft.collects_foldl_declareField _ fields
      rw [Except.map, ok_bind, ok_bind,
        foldlM_declare (fun _ _ => addMethod_of_not_collects) (fun _ _ => rfl) hcollects]
      cases file.methods.mapM (WrittenMember.info keep file.pool) with
      | error defect => rfl
      | ok methods =>
          have hcollectsAll : (methods.foldl Draft.declareMethod
              (fields.foldl Draft.declareField
                (Draft.start name ⟨file.access⟩ superClass interfaces false))).collects = false :=
            (Draft.collects_foldl_declareMethod _ methods).trans hcollects
          rw [Except.map, ok_bind, ok_bind]
          refine bind_congr fun annots => ?_
          rw [← Parts.record_draft false, Draft.addClassAnnots_of_not_collects hcollectsAll]
          rfl

/-- Without its references a class is indexed as the record of its parts. -/
theorem indexed_eq_some_iff {record : ClassRecord} :
    file.indexed ⟨false, keep⟩ = .ok (some record) ↔
      ∃ parts, file.HasParts keep parts ∧ parts.record ⟨file.access⟩ = record := by
  unfold indexed
  constructor
  · intro h
    obtain ⟨name, hname, h⟩ := bind_eq_ok.mp h
    split at h
    · cases h
    · next hclass =>
        obtain ⟨declared, hdeclared, h⟩ := bind_eq_ok.mp h
        cases h
        rw [declared_eq] at hdeclared
        obtain ⟨superClass, hsuper, h⟩ := bind_eq_ok.mp hdeclared
        obtain ⟨interfaces, hinterfaces, h⟩ := bind_eq_ok.mp h
        obtain ⟨fields, hfields, h⟩ := bind_eq_ok.mp h
        obtain ⟨methods, hmethods, h⟩ := bind_eq_ok.mp h
        obtain ⟨annots, hannots, h⟩ := bind_eq_ok.mp h
        exact ⟨⟨name, superClass, interfaces, fields, methods, annots⟩,
          ⟨hname, Bool.eq_false_iff.mpr hclass, hsuper, hinterfaces, mapM_eq_ok.mp hfields,
            mapM_eq_ok.mp hmethods, hannots⟩, Except.ok.inj h⟩
  · rintro ⟨parts, hparts, rfl⟩
    refine bind_eq_ok.mpr ⟨parts.name, hparts.name, ?_⟩
    rw [if_neg (Bool.eq_false_iff.mp hparts.isClass), declared_eq, hparts.superClass,
      hparts.interfaces, mapM_eq_ok.mpr hparts.fields, mapM_eq_ok.mpr hparts.methods,
      hparts.annots]
    rfl

/-- But for its references a class is indexed as the record of its parts. -/
theorem exists_parts_of_indexed {options : IndexOptions} {record : ClassRecord}
    (h : file.indexed options = .ok (some record)) :
    ∃ parts, file.HasParts options.keepAnnot parts ∧
      record.withoutReferences = parts.record ⟨file.access⟩ := by
  obtain ⟨collects, keep⟩ := options
  cases collects with
  | true =>
      obtain ⟨parts, hparts, hrecord⟩ := indexed_eq_some_iff.mp (indexed_bare h)
      exact ⟨parts, hparts, hrecord.symm⟩
  | false =>
      obtain ⟨parts, hparts, rfl⟩ := indexed_eq_some_iff.mp h
      exact ⟨parts, hparts, rfl⟩

end WrittenClass

/-! ## Keys -/

/-- Whether no two fields and no two methods have the same key. -/
def ClassRecord.HasUniqueKeys (record : ClassRecord) : Prop :=
  (record.fields.map Prod.fst).Nodup ∧ (record.methods.map Prod.fst).Nodup

theorem nodup_keys_ofList {α : Type} (pairs : List (String × α)) :
    ((Sorted.ofList pairs).map Prod.fst).Nodup :=
  List.pairwise_map.mpr ((Sorted.collects_ofList pairs).sorted.imp ne_of_lt)

/-- In the record of a class file no two fields and no two methods have the same key. -/
theorem hasUniqueKeys_of_index {options : IndexOptions} {bytes : List UInt8} {record : ClassRecord}
    (h : index options bytes = .ok (some record)) : record.HasUniqueKeys := by
  obtain ⟨file, rfl⟩ := WrittenClass.exists_of_index h
  rw [WrittenClass.index_bytes] at h
  obtain ⟨parts, -, hrecord⟩ := WrittenClass.exists_parts_of_indexed h
  have hkeys : record.withoutReferences.HasUniqueKeys := by
    rw [hrecord]
    exact ⟨nodup_keys_ofList _, nodup_keys_ofList _⟩
  exact hkeys

end ClassFile

end ModCatalog
