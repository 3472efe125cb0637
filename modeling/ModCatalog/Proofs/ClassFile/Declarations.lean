import ModCatalog.Proofs.ClassFile.Annotations
import ModCatalog.Proofs.ClassFile.Members

/-!
# Declared members

The fields of a record are kept by their names, its methods by name and descriptor run together.
Where no two members of a class file have one key, its record has all of them; where several have,
it has the last.
-/

namespace ModCatalog

namespace ClassFile

/-- Whether a table has, for every key, the last of the members that have it, and nothing else. -/
def KeepsLast (key : MemberInfo → String) (members : List MemberInfo)
    (table : List (String × MemberInfo)) : Prop :=
  ∀ name info, (name, info) ∈ table ↔ ∃ earlier later, members = earlier ++ info :: later ∧
    key info = name ∧ ∀ other ∈ later, key other ≠ name

theorem keepsLast_ofList (key : MemberInfo → String) (members : List MemberInfo) :
    KeepsLast key members (Sorted.ofList (members.map fun info => (key info, info))) := by
  intro name info
  rw [(Sorted.collects_ofList _).mem_iff]
  constructor
  · rintro ⟨front, back, hsplit, hback⟩
    obtain ⟨earlier, rest, rfl, -, hrest⟩ := List.map_eq_append_iff.mp hsplit
    obtain ⟨_, later, rfl, hinfo, rfl⟩ := List.map_eq_cons_iff.mp hrest
    cases hinfo
    exact ⟨earlier, later, rfl, rfl, fun other hother =>
      hback _ (List.mem_map_of_mem hother)⟩
  · rintro ⟨earlier, later, rfl, rfl, hlater⟩
    refine ⟨_, _, List.map_append, ?_⟩
    intro other hother
    obtain ⟨member, hmember, rfl⟩ := List.mem_map.mp hother
    exact hlater member hmember

/-- Where no two members have one key, each of them is in the table. -/
theorem KeepsLast.mem {key : MemberInfo → String} {members : List MemberInfo}
    {table : List (String × MemberInfo)} (h : KeepsLast key members table)
    (hkeys : (members.map key).Nodup) {info : MemberInfo} (hinfo : info ∈ members) :
    (key info, info) ∈ table := by
  obtain ⟨earlier, later, rfl⟩ := List.append_of_mem hinfo
  rw [List.map_append, List.map_cons, List.nodup_append] at hkeys
  refine (h _ _).mpr ⟨earlier, later, rfl, rfl, fun other hother hsame => ?_⟩
  obtain ⟨-, hrest, -⟩ := hkeys
  exact (List.nodup_cons.mp hrest).1 (hsame ▸ List.mem_map_of_mem hother)

/-! ## Keys of methods -/

/-- Whether the name and the descriptor of a method can be told apart where they are run together. -/
def MemberInfo.IsPlainMethod (method : MemberInfo) : Prop :=
  '(' ∉ method.name.toList ∧ ∃ rest, method.descriptor.toList = '(' :: rest

/-- The name of a method stands in its key in front of the first parenthesis. -/
theorem MemberInfo.IsPlainMethod.takeWhile_methodKey {method : MemberInfo}
    (h : method.IsPlainMethod) :
    method.methodKey.toList.takeWhile (· ≠ '(') = method.name.toList := by
  obtain ⟨hname, rest, hrest⟩ := h
  have hfront : ∀ c ∈ method.name.toList, decide (c ≠ '(') = true := fun c hc =>
    decide_eq_true fun hsame => hname (hsame ▸ hc)
  rw [MemberInfo.methodKey, String.toList_append, List.takeWhile_append_of_pos hfront, hrest]
  simp

theorem MemberInfo.IsPlainMethod.eq_of_methodKey {first second : MemberInfo}
    (hfirst : first.IsPlainMethod) (hsecond : second.IsPlainMethod)
    (h : first.methodKey = second.methodKey) :
    first.name = second.name ∧ first.descriptor = second.descriptor := by
  have hname : first.name = second.name := by
    rw [← String.toList_inj, ← hfirst.takeWhile_methodKey, h, hsecond.takeWhile_methodKey]
  refine ⟨hname, (String.append_right_inj first.name).mp ?_⟩
  rw [methodKey, methodKey, ← hname] at h
  exact h

/-- Methods that differ in name or descriptor have different keys. -/
theorem nodup_methodKeys {methods : List MemberInfo}
    (hplain : ∀ method ∈ methods, method.IsPlainMethod)
    (hdiffer : methods.Pairwise fun first second =>
      ¬ (first.name = second.name ∧ first.descriptor = second.descriptor)) :
    (methods.map MemberInfo.methodKey).Nodup :=
  List.pairwise_map.mpr (hdiffer.imp_of_mem fun hfirst hsecond hne hkey =>
    hne ((hplain _ hfirst).eq_of_methodKey (hplain _ hsecond) hkey))

/-! ## Members as they are declared -/

/-- The wanted annotations of an attribute, if it holds annotations. -/
def WrittenAttribute.keptAnnots (keep : String → Bool) (pool : Pool) (attr : WrittenAttribute) :
    Except Defect (List Annot) := do
  if (← pool.utf8 attr.name) = Index.annotAttribute then Element.annots keep pool attr.content
  else return []

/-- Whether `info` is what a member is declared as: its name, descriptor and access, and the wanted
annotations of all its attributes one after another. -/
structure WrittenMember.Declares (options : IndexOptions) (pool : Pool) (member : WrittenMember)
    (info : MemberInfo) : Prop where
  name : pool.utf8 member.name = .ok info.name
  descriptor : pool.utf8 member.descriptor = .ok info.descriptor
  access : info.access = ⟨member.access⟩
  annots : ∃ lists, member.attributes.mapM (WrittenAttribute.keptAnnots options.keepAnnot pool) =
    .ok lists ∧ info.annots = lists.flatten

/-- Whether `fields` and `methods` are the members that a class file declares, in their order, and
its record has the last of each key. -/
structure WrittenClass.HasMembers (options : IndexOptions) (file : WrittenClass)
    (record : ClassRecord) (fields methods : List MemberInfo) : Prop where
  declaresFields : List.Forall₂ (WrittenMember.Declares options file.pool) file.fields fields
  declaresMethods : List.Forall₂ (WrittenMember.Declares options file.pool) file.methods methods
  keepsFields : KeepsLast MemberInfo.name fields record.fields
  keepsMethods : KeepsLast MemberInfo.methodKey methods record.methods

namespace WrittenAttribute

variable {keep : String → Bool} {pool : Pool}

theorem visit_addAnnots (attr : WrittenAttribute) (annots : List Annot) :
    attr.visit pool (Index.addAnnots keep pool) annots =
      (attr.keptAnnots keep pool).map (annots ++ ·) := by
  unfold visit keptAnnots Index.addAnnots
  cases pool.utf8 attr.name with
  | error defect => rfl
  | ok name =>
      rw [ok_bind, ok_bind]
      split
      · rfl
      · show Except.ok annots = Except.ok (annots ++ [])
        rw [List.append_nil]

theorem keptAnnots_of_visitAll {attributes : List WrittenAttribute} {annots found : List Annot}
    (h : visitAll pool (Index.addAnnots keep pool) attributes annots = .ok found) :
    ∃ lists, attributes.mapM (keptAnnots keep pool) = .ok lists ∧
      found = annots ++ lists.flatten := by
  induction attributes generalizing annots with
  | nil =>
      cases h
      exact ⟨[], rfl, (List.append_nil _).symm⟩
  | cons attr rest ih =>
      rw [visitAll_cons, visit_addAnnots] at h
      obtain ⟨_, hfirst, hrest⟩ := bind_eq_ok.mp h
      obtain ⟨kept, hkept, rfl⟩ := map_eq_ok.mp hfirst
      obtain ⟨lists, hlists, rfl⟩ := ih hrest
      refine ⟨kept :: lists, ?_, by rw [List.flatten_cons, List.append_assoc]⟩
      rw [List.mapM_cons, hkept, ok_bind, hlists]
      rfl

end WrittenAttribute

namespace WrittenMember

variable {options : IndexOptions} {pool : Pool} {member : WrittenMember}

theorem declares_of_info {info : MemberInfo}
    (h : member.info options.keepAnnot pool = .ok info) : member.Declares options pool info := by
  obtain ⟨⟨access, name, descriptor⟩, hhead, h⟩ := bind_eq_ok.mp h
  obtain ⟨found, hfound, h⟩ := bind_eq_ok.mp h
  obtain ⟨_, hname, hhead⟩ := bind_eq_ok.mp hhead
  obtain ⟨_, hdescriptor, hhead⟩ := bind_eq_ok.mp hhead
  obtain ⟨lists, hlists, rfl⟩ := WrittenAttribute.keptAnnots_of_visitAll hfound
  cases h
  cases hhead
  exact ⟨hname, hdescriptor, rfl, lists, hlists, List.nil_append _⟩

theorem names_of_declares {members : List WrittenMember} {infos : List MemberInfo}
    (h : List.Forall₂ (Declares options pool) members infos) :
    members.mapM (fun member => pool.utf8 member.name) = .ok (infos.map MemberInfo.name) := by
  rw [mapM_eq_ok, List.forall₂_map_right_iff]
  exact h.imp fun _ _ => Declares.name

theorem descriptors_of_declares {members : List WrittenMember} {infos : List MemberInfo}
    (h : List.Forall₂ (Declares options pool) members infos) :
    members.mapM (fun member => pool.utf8 member.descriptor) =
      .ok (infos.map MemberInfo.descriptor) := by
  rw [mapM_eq_ok, List.forall₂_map_right_iff]
  exact h.imp fun _ _ => Declares.descriptor

end WrittenMember

namespace WrittenClass

theorem HasParts.hasMembers {options : IndexOptions} {file : WrittenClass} {parts : Parts}
    (h : file.HasParts options.keepAnnot parts) {record : ClassRecord}
    (hrecord : record.withoutReferences = parts.record ⟨file.access⟩) :
    file.HasMembers options record parts.fields parts.methods where
  declaresFields := h.fields.imp fun _ _ => WrittenMember.declares_of_info
  declaresMethods := h.methods.imp fun _ _ => WrittenMember.declares_of_info
  keepsFields := by
    have hfields : record.withoutReferences.fields = _ := congrArg ClassRecord.fields hrecord
    exact hfields ▸ keepsLast_ofList MemberInfo.name parts.fields
  keepsMethods := by
    have hmethods : record.withoutReferences.methods = _ := congrArg ClassRecord.methods hrecord
    exact hmethods ▸ keepsLast_ofList MemberInfo.methodKey parts.methods

end WrittenClass

/-- The record of a class has what its file declares.  Its tables have the last field of each name
and the last method of each key, as they are declared, and nothing else.  So it has all fields where
no two have one name, and all methods where no two have one key: no two have that differ in name or
descriptor, if names have no parenthesis and descriptors begin with one. -/
theorem index_hasMembers {options : IndexOptions} {bytes : List UInt8} {record : ClassRecord}
    (h : index options bytes = .ok (some record)) :
    (∃ file : WrittenClass, file.bytes = bytes) ∧
      ∀ file : WrittenClass, file.bytes = bytes → ∃ fields methods,
        file.HasMembers options record fields methods ∧
        ((fields.map MemberInfo.name).Nodup →
          ∀ field ∈ fields, (field.name, field) ∈ record.fields) ∧
        ((methods.map MemberInfo.methodKey).Nodup →
          ∀ method ∈ methods, (method.methodKey, method) ∈ record.methods) ∧
        ((∀ method ∈ methods, method.IsPlainMethod) →
          (methods.Pairwise fun first second =>
            ¬ (first.name = second.name ∧ first.descriptor = second.descriptor)) →
          (methods.map MemberInfo.methodKey).Nodup) := by
  refine ⟨WrittenClass.exists_of_index h, fun file hfile => ?_⟩
  rw [← hfile, WrittenClass.index_bytes] at h
  obtain ⟨parts, hparts, hrecord⟩ := WrittenClass.exists_parts_of_indexed h
  have hmembers := hparts.hasMembers hrecord
  exact ⟨_, _, hmembers, fun hnames _ => hmembers.keepsFields.mem hnames,
    fun hkeys _ => hmembers.keepsMethods.mem hkeys, nodup_methodKeys⟩

/-- A class with two fields and two methods. -/
def membersSample : WrittenClass :=
  { WrittenClass.sample with
    fields := [WrittenClass.sampleField, ⟨1, 3, 7, [], by decide⟩]
    methods := [⟨0x401, 3, 4, [], by decide⟩, ⟨0x401, 6, 4, [], by decide⟩]
    fieldsFit := by decide
    methodsFit := by decide }

def membersSampleRecord : ClassRecord :=
  ⟨"A", ⟨0x21⟩, none, [], [],
    [("f", ⟨"f", "I", ⟨2⟩, [⟨"B", []⟩]⟩), ("m", ⟨"m", "I", ⟨1⟩, []⟩)],
    [("f()V", ⟨"f", "()V", ⟨0x401⟩, []⟩), ("m()V", ⟨"m", "()V", ⟨0x401⟩, []⟩)],
    [(⟨"B", "@field()", .annotUse⟩, 1)]⟩

theorem index_membersSample :
    index .standard membersSample.bytes = .ok (some membersSampleRecord) ∧
      ∃ fields methods, membersSample.HasMembers .standard membersSampleRecord fields methods ∧
        (∀ field ∈ fields, (field.name, field) ∈ membersSampleRecord.fields) ∧
        ∀ method ∈ methods, (method.methodKey, method) ∈ membersSampleRecord.methods := by
  have hindex : index .standard membersSample.bytes = .ok (some membersSampleRecord) := by
    rw [WrittenClass.index_bytes]
    with_unfolding_all rfl
  obtain ⟨-, hfile⟩ := index_hasMembers hindex
  obtain ⟨fields, methods, hmembers, hfields, hmethods, hkeys⟩ := hfile membersSample rfl
  have hfieldNames : fields.map MemberInfo.name = ["f", "m"] :=
    Except.ok.inj ((WrittenMember.names_of_declares hmembers.declaresFields).symm.trans
      (by with_unfolding_all rfl))
  have hnames : methods.map MemberInfo.name = ["m", "f"] :=
    Except.ok.inj ((WrittenMember.names_of_declares hmembers.declaresMethods).symm.trans
      (by with_unfolding_all rfl))
  have hdescriptors : methods.map MemberInfo.descriptor = ["()V", "()V"] :=
    Except.ok.inj ((WrittenMember.descriptors_of_declares hmembers.declaresMethods).symm.trans
      (by with_unfolding_all rfl))
  have hdiffer : (methods.map MemberInfo.name).Nodup := by rw [hnames]; decide
  refine ⟨hindex, fields, methods, hmembers, hfields (by rw [hfieldNames]; decide),
    hmethods (hkeys (fun method hmethod => ?_) ?_)⟩
  · have hname : method.name ∈ ["m", "f"] := hnames ▸ List.mem_map_of_mem hmethod
    have hdescriptor : method.descriptor ∈ ["()V", "()V"] :=
      hdescriptors ▸ List.mem_map_of_mem hmethod
    have hplain : ∀ name ∈ ["m", "f"], '(' ∉ name.toList := by decide
    have hopens : ∀ descriptor ∈ ["()V", "()V"], descriptor.toList.head? = some '(' := by decide
    exact ⟨hplain _ hname, List.head?_eq_some_iff.mp (hopens _ hdescriptor)⟩
  · exact (List.pairwise_map.mp hdiffer).imp fun hne hsame => hne hsame.1

/-- A class with two fields that differ in their types alone, and two methods whose names and
descriptors are run together to one key. -/
def overloaded : WrittenClass :=
  let constants : List WrittenConstant :=
    [.ofText "B" (by decide), .classInfo 1, .ofText "java/lang/Object" (by decide), .classInfo 3,
      .ofText "g" (by decide), .ofText "J" (by decide), .ofText "D" (by decide),
      .ofText "n" (by decide), .ofText "(Lx(LA;)V" (by decide), .ofText "n(Lx" (by decide),
      .ofText "(LA;)V" (by decide)]
  { WrittenClass.sample with
    poolBytes := WrittenConstant.poolBytes (WrittenConstant.width constants + 1) constants
    pool := WrittenConstant.pool constants
    readsPool := WrittenConstant.reads_read (by decide)
    access := 0x421
    superClass := 4
    fields := [⟨1, 5, 6, [], by decide⟩, ⟨2, 5, 7, [], by decide⟩]
    methods := [⟨0x401, 8, 9, [], by decide⟩, ⟨0x404, 10, 11, [], by decide⟩]
    attributes := []
    fieldsFit := by decide
    methodsFit := by decide
    attributesFit := by decide }

def overloadedRecord : ClassRecord :=
  ⟨"B", ⟨0x421⟩, none, [], [], [("g", ⟨"g", "D", ⟨2⟩, []⟩)],
    [("n(Lx(LA;)V", ⟨"n(Lx", "(LA;)V", ⟨0x404⟩, []⟩)], []⟩

/-- No two fields and no two methods have both name and descriptor in common, and yet the first field
and the first method are lost. -/
theorem index_overloaded :
    ∃ fields methods,
      index .standard overloaded.bytes = .ok (some overloadedRecord) ∧
      List.Forall₂ (WrittenMember.Declares .standard overloaded.pool) overloaded.fields fields ∧
      List.Forall₂ (WrittenMember.Declares .standard overloaded.pool) overloaded.methods methods ∧
      (fields.Pairwise fun first second =>
        ¬ (first.name = second.name ∧ first.descriptor = second.descriptor)) ∧
      (methods.Pairwise fun first second =>
        ¬ (first.name = second.name ∧ first.descriptor = second.descriptor)) ∧
      (∃ field ∈ fields, ∀ entry ∈ overloadedRecord.fields, entry.2 ≠ field) ∧
      ∃ method ∈ methods, ∀ entry ∈ overloadedRecord.methods, entry.2 ≠ method := by
  have hindex : index .standard overloaded.bytes = .ok (some overloadedRecord) := by
    rw [WrittenClass.index_bytes]
    with_unfolding_all rfl
  have hfields : List.Forall₂ (WrittenMember.Declares .standard overloaded.pool) overloaded.fields
      [⟨"g", "J", ⟨1⟩, []⟩, ⟨"g", "D", ⟨2⟩, []⟩] :=
    .cons (WrittenMember.declares_of_info (by with_unfolding_all rfl))
      (.cons (WrittenMember.declares_of_info (by with_unfolding_all rfl)) .nil)
  have hmethods : List.Forall₂ (WrittenMember.Declares .standard overloaded.pool)
      overloaded.methods
      [⟨"n", "(Lx(LA;)V", ⟨0x401⟩, []⟩, ⟨"n(Lx", "(LA;)V", ⟨0x404⟩, []⟩] :=
    .cons (WrittenMember.declares_of_info (by with_unfolding_all rfl))
      (.cons (WrittenMember.declares_of_info (by with_unfolding_all rfl)) .nil)
  refine ⟨_, _, hindex, hfields, hmethods, by simp, by simp, ⟨_, List.mem_cons_self, ?_⟩,
    _, List.mem_cons_self, ?_⟩
  · intro entry hentry hsame
    cases List.mem_singleton.mp hentry
    exact absurd (congrArg MemberInfo.descriptor hsame) (by decide)
  · intro entry hentry hsame
    cases List.mem_singleton.mp hentry
    exact absurd (congrArg MemberInfo.descriptor hsame) (by decide)

end ClassFile

end ModCatalog
