import ModCatalog.Proofs.ClassFile.Layout
import ModCatalog.Proofs.ClassFile.References

/-!
# Collecting references

Class files are indexed with their references or without.  Every step of the one way is a step of the
other after which the references are forgotten, so what differs is the table of references alone.
Code that cannot be read, and uses that cannot be counted, are defects only where references are
collected.
-/

namespace ModCatalog.ClassFile

open Reading

/-- A record without its references. -/
def ClassRecord.withoutReferences (record : ClassRecord) : ClassRecord :=
  { record with references := [] }

/-! ## Drafts -/

namespace Draft

variable {draft after : Draft}

/-- The same draft where nothing is collected. -/
def bare (draft : Draft) : Draft := ⟨draft.record.withoutReferences, draft.rawSuper, false⟩

theorem bare_withUses (draft : Draft) (references : List Reference) :
    (draft.withUses references).bare = draft.bare := by
  unfold bare withUses
  rw [ClassRecord.withUses_eq]
  rfl

theorem bare_of_use {references : List Reference} (h : draft.use references = .ok after) :
    after.bare = draft.bare := by
  rw [eq_withUses_of_use h, bare_withUses]

theorem bare_of_useAnnots {target : Target} {annots : List Annot}
    (h : draft.useAnnots target annots = .ok after) : after.bare = draft.bare := by
  unfold useAnnots at h
  split at h
  · exact bare_of_use h
  · cases h
    rfl

theorem addField_bare {field : MemberInfo} (h : draft.addField field = .ok after) :
    draft.bare.addField field = .ok after.bare := by
  obtain ⟨used, hused, h⟩ := bind_eq_ok.mp h
  cases h
  exact congrArg (fun bare : Draft => Except.ok (bare.declareField field)) (bare_of_useAnnots hused).symm

theorem addMethod_bare {method : MemberInfo} (h : draft.addMethod method = .ok after) :
    draft.bare.addMethod method = .ok after.bare := by
  obtain ⟨used, hused, h⟩ := bind_eq_ok.mp h
  cases h
  exact congrArg (fun bare : Draft => Except.ok (bare.declareMethod method))
    (bare_of_useAnnots hused).symm

theorem addClassAnnots_bare {annots : List Annot} (h : draft.addClassAnnots annots = .ok after) :
    draft.bare.addClassAnnots annots = .ok after.bare := by
  obtain ⟨used, hused, h⟩ := bind_eq_ok.mp h
  cases h
  exact congrArg (fun bare : Draft => Except.ok (bare.declareAnnots annots))
    (bare_of_useAnnots hused).symm

theorem bare_of_addCall {method : MemberRef} (h : draft.addCall method = .ok after) :
    after.bare = draft.bare := by
  obtain ⟨called, hcalled, h⟩ := bind_eq_ok.mp h
  obtain ⟨arguments, -, h⟩ := bind_eq_ok.mp h
  exact (bare_of_use h).trans (bare_of_use hcalled)

end Draft

/-! ## Code -/

namespace Instruction

variable {pool : Pool} {draft : Draft}

theorem bare_of_addLoad {index : UInt16} {after : Draft} (h : addLoad pool draft index = .ok after) :
    after.bare = draft.bare := by
  obtain ⟨constant, -, h⟩ := bind_eq_ok.mp h
  split at h
  · obtain ⟨name, -, h⟩ := bind_eq_ok.mp h
    exact Draft.bare_of_use h
  · cases h
    rfl

/-- An instruction changes nothing but the references. -/
theorem gives_step (pool : Pool) (draft : Draft) (awaited : Bool) :
    Gives (fun result => result.1.bare = draft.bare) (step pool draft awaited) := by
  have hpassed : ∀ awaited, Gives (fun result : Draft × Bool => result.1.bare = draft.bare)
      (pure (draft, awaited)) := fun _ => gives_pure rfl
  have hcounted : ∀ {answer : Except Defect Draft},
      (∀ after, answer = .ok after → after.bare = draft.bare) →
      Gives (fun result : Draft × Bool => result.1.bare = draft.bare)
        (do return (← ofExcept answer, awaited)) := fun h =>
    (gives_ofExcept h).bind fun _ hafter => gives_pure hafter
  have hcalled : ∀ method, Gives (fun result : Draft × Bool => result.1.bare = draft.bare)
      (do return (← ofExcept (draft.addCall method), awaited)) := fun _ =>
    hcounted fun _ => Draft.bare_of_addCall
  unfold step
  refine gives_bind fun offset => gives_bind fun opcode => ?_
  split
  case h_1 | h_2 | h_3 | h_4 =>
    exact gives_bind fun _ => gives_bind fun _ => hcounted fun _ => Draft.bare_of_use
  case h_5 | h_6 => exact gives_bind fun _ => gives_bind fun method => hcalled method
  case h_7 =>
    refine gives_bind fun _ => gives_bind fun method => ?_
    split
    · exact hpassed false
    · exact hcalled method
  case h_8 =>
    refine gives_bind fun _ => gives_bind fun method => ?_
    exact (gives_ofExcept fun _ => Draft.bare_of_addCall).bind fun _ hafter =>
      gives_bind fun _ => gives_pure hafter
  case h_9 | h_10 => exact gives_bind fun _ => hcounted fun _ => bare_of_addLoad
  case h_11 | h_12 => exact gives_bind fun _ => hpassed awaited
  case h_13 => exact gives_bind fun _ => gives_bind fun _ => hpassed awaited
  case h_14 =>
    split
    · exact gives_bind fun _ => hpassed awaited
    · exact gives_throw _ _

theorem gives_steps (pool : Pool) (bound : Nat) (draft : Draft) (awaited : Bool) :
    Gives (fun after => after.bare = draft.bare) (steps pool bound draft awaited) := by
  induction bound generalizing draft awaited with
  | zero => exact gives_pure rfl
  | succ bound ih =>
      refine gives_bind fun ended => ?_
      split
      · exact gives_pure rfl
      · exact (gives_step pool draft awaited).bind fun result hresult cursor after hafter =>
          (ih result.1 result.2 cursor after hafter).trans hresult

end Instruction

theorem Index.bare_of_walkCode {pool : Pool} {inConstructor : Bool} {content : List UInt8}
    {draft after : Draft} (h : walkCode pool inConstructor content draft = .ok after) :
    after.bare = draft.bare := by
  obtain ⟨code, -, h⟩ := bind_eq_ok.mp h
  exact Instruction.gives_steps pool code.length draft inConstructor _ _ h

/-! ## Members -/

/-- Code holds no annotations. -/
theorem Index.addAnnots_code (keep : String → Bool) (pool : Pool) (content : List UInt8)
    (annots : List Annot) : addAnnots keep pool codeAttribute content annots = .ok annots :=
  if_neg (by decide)

section Members

variable {keep : String → Bool} {pool : Pool} {draft after : Draft} {member : WrittenMember}

theorem methodAttribute_bare {method name : String} {content : List UInt8}
    {state next : List Annot × Draft}
    (h : Index.methodAttribute ⟨true, keep⟩ pool method name content state = .ok next) :
    Index.methodAttribute ⟨false, keep⟩ pool method name content (state.1, state.2.bare) =
      .ok (next.1, next.2.bare) := by
  unfold Index.methodAttribute at h ⊢
  simp only [Bool.and_false, Bool.false_eq_true, if_false]
  split at h
  · next hcode =>
      simp only [Bool.and_true, decide_eq_true_eq] at hcode
      obtain ⟨walked, hwalked, rfl⟩ := map_eq_ok.mp h
      rw [hcode, Index.addAnnots_code, Index.bare_of_walkCode hwalked]
      rfl
  · obtain ⟨annots, hannots, rfl⟩ := map_eq_ok.mp h
    exact map_eq_ok.mpr ⟨annots, hannots, rfl⟩

theorem addField_bare (h : member.addField ⟨true, keep⟩ pool draft = .ok after) :
    member.addField ⟨false, keep⟩ pool draft.bare = .ok after.bare := by
  obtain ⟨info, hinfo, h⟩ := bind_eq_ok.mp h
  exact bind_eq_ok.mpr ⟨info, hinfo, Draft.addField_bare h⟩

theorem addMethod_bare (h : member.addMethod ⟨true, keep⟩ pool draft = .ok after) :
    member.addMethod ⟨false, keep⟩ pool draft.bare = .ok after.bare := by
  obtain ⟨head, hhead, h⟩ := bind_eq_ok.mp h
  obtain ⟨⟨annots, walked⟩, hvisited, h⟩ := bind_eq_ok.mp h
  have hbare : WrittenAttribute.visitAll pool (Index.methodAttribute ⟨false, keep⟩ pool head.2.1)
      member.attributes ([], draft.bare) = .ok (annots, walked.bare) := by
    refine foldlM_view (fun state => (state.1, state.2.bare)) ?_ hvisited
    intro state attr next hnext
    obtain ⟨name, hname, hnext⟩ := bind_eq_ok.mp hnext
    exact bind_eq_ok.mpr ⟨name, hname, methodAttribute_bare hnext⟩
  exact bind_eq_ok.mpr ⟨head, hhead, bind_eq_ok.mpr ⟨_, hbare, Draft.addMethod_bare h⟩⟩

end Members

namespace WrittenClass

variable {keep : String → Bool} {file : WrittenClass}

theorem declared_bare {name : String} {record : ClassRecord}
    (h : file.declared ⟨true, keep⟩ name = .ok record) :
    file.declared ⟨false, keep⟩ name = .ok record.withoutReferences := by
  obtain ⟨superClass, hsuper, h⟩ := bind_eq_ok.mp h
  obtain ⟨interfaces, hinterfaces, h⟩ := bind_eq_ok.mp h
  obtain ⟨withFields, hfields, h⟩ := bind_eq_ok.mp h
  obtain ⟨withMethods, hmethods, h⟩ := bind_eq_ok.mp h
  obtain ⟨annots, hannots, h⟩ := bind_eq_ok.mp h
  obtain ⟨last, hlast, h⟩ := bind_eq_ok.mp h
  cases h
  refine bind_eq_ok.mpr ⟨superClass, hsuper, bind_eq_ok.mpr ⟨interfaces, hinterfaces, ?_⟩⟩
  refine bind_eq_ok.mpr ⟨withFields.bare, foldlM_view Draft.bare (fun _ _ _ => addField_bare) hfields, ?_⟩
  refine bind_eq_ok.mpr ⟨withMethods.bare, foldlM_view Draft.bare (fun _ _ _ => addMethod_bare) hmethods, ?_⟩
  exact bind_eq_ok.mpr ⟨annots, hannots, bind_eq_ok.mpr
    ⟨last.bare, Draft.addClassAnnots_bare hlast, rfl⟩⟩

/-- A class that is indexed with its references is indexed without them as the same record. -/
theorem indexed_bare {record : ClassRecord} (h : file.indexed ⟨true, keep⟩ = .ok (some record)) :
    file.indexed ⟨false, keep⟩ = .ok (some record.withoutReferences) := by
  obtain ⟨name, hname, h⟩ := bind_eq_ok.mp h
  refine bind_eq_ok.mpr ⟨name, hname, ?_⟩
  split at h
  · cases h
  · next hclass =>
      obtain ⟨declared, hdeclared, h⟩ := bind_eq_ok.mp h
      cases h
      rw [if_neg hclass]
      exact bind_eq_ok.mpr ⟨_, declared_bare hdeclared, rfl⟩

end WrittenClass

/-- What is collected does not matter to whether a file describes no class. -/
theorem index_eq_none_iff {options : IndexOptions} {bytes : List UInt8} :
    index options bytes = .ok none ↔ runOn Index.opening bytes = .ok none := by
  rw [index, Index.classFile_eq, runOn, runOn, runAt_bind]
  obtain ⟨answer, after⟩ := runAt Index.opening (Cursor.start bytes)
  cases answer with
  | error defect => simp
  | ok opened =>
      cases opened with
      | none => simp [Index.declarationOf]
      | some head =>
          -- A class that was opened is indexed as a record or not at all.
          obtain ⟨pool, access, name⟩ := head
          simp only [Index.declarationOf, runAt_bind]
          generalize runAt (Index.declaration options pool access name) after = run
          obtain ⟨answer, after⟩ := run
          cases answer <;> simp

/-- Collecting references changes nothing but the references.  Where a class is indexed with them it
is indexed without them as the same record, a file is nothing to be indexed in both ways or in none,
and what cannot be indexed without them cannot be indexed with them. -/
theorem index_without_references (keep : String → Bool) (bytes : List UInt8) :
    (∀ record, index ⟨true, keep⟩ bytes = .ok (some record) →
        index ⟨false, keep⟩ bytes = .ok (some { record with references := [] })) ∧
      (index ⟨true, keep⟩ bytes = .ok none ↔ index ⟨false, keep⟩ bytes = .ok none) ∧
      ∀ defect, index ⟨false, keep⟩ bytes = .error defect →
        ∃ other, index ⟨true, keep⟩ bytes = .error other := by
  have hsome : ∀ record, index ⟨true, keep⟩ bytes = .ok (some record) →
      index ⟨false, keep⟩ bytes = .ok (some record.withoutReferences) := by
    intro record h
    obtain ⟨file, rfl⟩ := WrittenClass.exists_of_index h
    rw [WrittenClass.index_bytes] at h ⊢
    exact WrittenClass.indexed_bare h
  have hnone : index ⟨true, keep⟩ bytes = .ok none ↔ index ⟨false, keep⟩ bytes = .ok none := by
    rw [index_eq_none_iff, index_eq_none_iff]
  refine ⟨hsome, hnone, fun defect hdefect => ?_⟩
  cases h : index ⟨true, keep⟩ bytes with
  | error other => exact ⟨other, rfl⟩
  | ok record? =>
      -- Any answer but a defect would be an answer without references too.
      cases record? with
      | none =>
          rw [hnone.mp h] at hdefect
          cases hdefect
      | some record =>
          rw [hsome record h] at hdefect
          cases hdefect

theorem index_sample_without_references :
    index .standard WrittenClass.sample.bytes = .ok (some WrittenClass.sampleRecord) ∧
      index ⟨false, IndexOptions.keepByDefault⟩ WrittenClass.sample.bytes =
        .ok (some { WrittenClass.sampleRecord with references := [] }) ∧
      index ⟨false, IndexOptions.keepByDefault⟩ [0xca, 0xfe] = .error (.endOfData 4 0 2) ∧
      ∃ other, index ⟨true, IndexOptions.keepByDefault⟩ [0xca, 0xfe] = .error other := by
  obtain ⟨hsome, -, -⟩ := index_without_references IndexOptions.keepByDefault
    WrittenClass.sample.bytes
  obtain ⟨-, -, herror⟩ := index_without_references IndexOptions.keepByDefault [0xca, 0xfe]
  have hshort : index ⟨false, IndexOptions.keepByDefault⟩ [0xca, 0xfe] =
      .error (.endOfData 4 0 2) := by rfl
  exact ⟨WrittenClass.index_sample, hsome _ WrittenClass.index_sample, hshort, herror _ hshort⟩

end ModCatalog.ClassFile
