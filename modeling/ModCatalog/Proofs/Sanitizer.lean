import Mathlib.Data.List.Perm.Basic
import Mathlib.Data.List.TakeWhile
import Std.Data.HashMap.Lemmas
import ModCatalog.Proofs.ClassFile.Members
import ModCatalog.Sanitizer

/-!
# What sanitizing leaves

Every standard rule takes out whole classes by their names, and members and references one by one.
What several such rules leave does not depend on their order.  The references are judged by the
classes as they were, so neither the order of the classes nor a second pass makes a difference.
-/

namespace ModCatalog

open ClassFile

/-! ## The rules in words -/

namespace ClassFile.ClassRecord

/-- Whether the last part of the name ends in a dollar sign and digits. -/
def IsAnonymous (record : ClassRecord) : Prop :=
  ∃ front digits, digits ≠ [] ∧ (∀ c ∈ digits, c.isDigit) ∧
    record.simpleNameChars = front ++ '$' :: digits

theorem isAnonymous_iff (record : ClassRecord) :
    record.IsAnonymous ↔ SanitizingRule.isAnonymousName record.simpleNameChars = true := by
  unfold SanitizingRule.isAnonymousName
  rw [Bool.and_eq_true, decide_eq_true_iff, decide_eq_true_iff]
  constructor
  · rintro ⟨front, digits, hsome, hdigits, hname⟩
    have hreverse : record.simpleNameChars.reverse = digits.reverse ++ '$' :: front.reverse := by
      simp [hname]
    have hall : ∀ c ∈ digits.reverse, c.isDigit = true := fun c hc =>
      hdigits c (List.mem_reverse.mp hc)
    rw [hreverse, List.takeWhile_append_of_pos hall, List.dropWhile_append_of_pos hall]
    simp [hsome, Char.isDigit]
  · rintro ⟨hsome, hdollar⟩
    generalize hdigits : record.simpleNameChars.reverse.takeWhile Char.isDigit = digits at hsome
    obtain ⟨front, hfront⟩ := List.head?_eq_some_iff.mp hdollar
    refine ⟨front.reverse, digits.reverse, by simpa using hsome, ?_, ?_⟩
    · intro c hc
      rw [List.mem_reverse, ← hdigits] at hc
      exact List.mem_takeWhile_imp hc
    · have hcut := List.takeWhile_append_dropWhile (p := Char.isDigit)
        (l := record.simpleNameChars.reverse)
      rw [hdigits, hfront] at hcut
      rw [← List.reverse_reverse record.simpleNameChars, ← hcut]
      simp

instance (record : ClassRecord) : Decidable record.IsAnonymous :=
  decidable_of_iff _ record.isAnonymous_iff.symm

end ClassFile.ClassRecord

namespace Sanitizer

/-- Whether a class is the last one with a name. -/
def StandsFor (classes : List ClassRecord) (name : String) (record : ClassRecord) : Prop :=
  ∃ before after, classes = before ++ record :: after ∧ record.name = name ∧
    ∀ other ∈ after, other.name ≠ name

/-- Whether a reference names a field or method of one of the classes that no other mod can be meant
by: one that is static or neither public nor protected, or any one of a root class. -/
def IsInternal (classes : List ClassRecord) (reference : Reference) : Prop :=
  ∃ owner access, StandsFor classes reference.owner owner ∧
    owner.memberAccess? reference.member reference.kind = some access ∧
    (access.isStatic ∨ access.isVisible = false ∨ owner.isRoot)

theorem siblingsOf_eq (classes : List ClassRecord) (name : String) :
    siblingsOf classes name = classes.reverse.find? fun record => record.name = name := by
  have hfold : ∀ byName : Std.HashMap String ClassRecord,
      (classes.foldl (fun map record => map.insert record.name record) byName)[name]? =
        (classes.reverse.find? fun record => record.name = name).or byName[name]? := by
    induction classes with
    | nil => simp
    | cons record rest ih =>
        intro byName
        rw [List.foldl_cons, ih, Std.HashMap.getElem?_insert, List.reverse_cons, List.find?_append]
        by_cases hname : record.name = name <;> simp [hname]
  exact (hfold ∅).trans (by simp)

theorem siblingsOf_eq_some_iff {classes : List ClassRecord} {name : String} {owner : ClassRecord} :
    siblingsOf classes name = some owner ↔ StandsFor classes name owner := by
  rw [siblingsOf_eq, List.find?_eq_some_iff_append]
  constructor
  · rintro ⟨hname, after, before, hclasses, hafter⟩
    refine ⟨before.reverse, after.reverse, ?_, by simpa using hname, ?_⟩
    · simpa using congrArg List.reverse hclasses
    · intro other hother
      simpa using hafter other (List.mem_reverse.mp hother)
  · rintro ⟨before, after, rfl, hname, hafter⟩
    refine ⟨by simpa using hname, after.reverse, before.reverse, by simp, ?_⟩
    intro other hother
    simpa using hafter other (List.mem_reverse.mp hother)

theorem isInternal_iff (classes : List ClassRecord) (reference : Reference) :
    IsInternal classes reference ↔
      SanitizingRule.keepsReference (siblingsOf classes) reference = false := by
  unfold IsInternal SanitizingRule.keepsReference
  simp only [← siblingsOf_eq_some_iff]
  cases siblingsOf classes reference.owner with
  | none => simp
  | some owner =>
      cases haccess : owner.memberAccess? reference.member reference.kind with
      | none => simp [haccess]
      | some access =>
          cases hstatic : access.isStatic <;> cases hvisible : access.isVisible <;>
            simp [haccess, SanitizingRule.isInternalUse, hstatic, hvisible]

instance (classes : List ClassRecord) (reference : Reference) :
    Decidable (IsInternal classes reference) :=
  -- The last class of a name is searched for here, so that small cases can be computed in proofs.
  decidable_of_iff (SanitizingRule.keepsReference
      (fun name => classes.reverse.find? fun record => record.name = name) reference = false) <| by
    rw [isInternal_iff, funext (siblingsOf_eq classes)]

/-- What is left of a class of an artifact. -/
def pruned (classes : List ClassRecord) (record : ClassRecord) : ClassRecord :=
  { record with
    fields := record.fields.filter fun field => field.2.access.isVisible
    methods := record.methods.filter fun method =>
      method.2.access.isVisible && !SanitizingRule.isLambda method.2
    references := record.references.filter fun use => ¬ IsInternal classes use.1 }

/-- What is left of classes in some order, where references are judged by all classes of an
artifact. -/
def survivors (classes order : List ClassRecord) : List ClassRecord :=
  (order.filter fun record => ¬ record.IsAnonymous).map (pruned classes)

end Sanitizer

/-! ## Rules as prunings -/

/-- What a rule takes out: classes by their names, members and references one by one. -/
structure Pruning where
  dropsName : String → Bool
  keepsField : String × MemberInfo → Bool
  keepsMethod : String × MemberInfo → Bool
  keepsUse : Reference × Nat → Bool

namespace Pruning

/-- What is left of a class that is not dropped. -/
def prune (pruning : Pruning) (record : ClassRecord) : ClassRecord :=
  { record with
    fields := record.fields.filter pruning.keepsField
    methods := record.methods.filter pruning.keepsMethod
    references := record.references.filter pruning.keepsUse }

/-- What is left of a class, if anything is. -/
def leave? (pruning : Pruning) (record : ClassRecord) : Option ClassRecord :=
  if pruning.dropsName record.name then none else some (pruning.prune record)

/-- Take out what one of several prunings takes out. -/
def together (prunings : List Pruning) : Pruning where
  dropsName name := prunings.any fun pruning => pruning.dropsName name
  keepsField field := prunings.all fun pruning => pruning.keepsField field
  keepsMethod method := prunings.all fun pruning => pruning.keepsMethod method
  keepsUse use := prunings.all fun pruning => pruning.keepsUse use

theorem together_perm {prunings others : List Pruning} (h : prunings.Perm others) :
    together prunings = together others := by
  unfold together
  simp only [h.any_eq, h.all_eq]

theorem leave?_together_nil (record : ClassRecord) : (together []).leave? record = some record := by
  simp [together, leave?, prune, List.filter_eq_self.mpr]

theorem leave?_together_cons (first : Pruning) (rest : List Pruning) (record : ClassRecord) :
    (together (first :: rest)).leave? record =
      (first.leave? record).bind (together rest).leave? := by
  unfold leave?
  cases hfirst : first.dropsName record.name with
  | true => simp [together, hfirst]
  | false => simp [together, prune, hfirst, List.filter_filter, Bool.and_comm]

end Pruning

namespace SanitizingRule

/-- Whether a rule takes out what a pruning does. -/
def Prunes (siblings : Siblings) (rule : SanitizingRule) (pruning : Pruning) : Prop :=
  ∀ record, rule.apply siblings record = .ok (pruning.leave? record)

end SanitizingRule

namespace Sanitizer

open SanitizingRule Pruning

variable {siblings : Siblings} {rules : List SanitizingRule} {prunings : List Pruning}

theorem applyRules_of_prunes (h : List.Forall₂ (Prunes siblings) rules prunings)
    (record : ClassRecord) :
    applyRules siblings rules record = .ok ((together prunings).leave? record) := by
  induction h generalizing record with
  | nil => rw [leave?_together_nil]; rfl
  | @cons rule pruning rules prunings hfirst _ ih =>
      rw [leave?_together_cons, applyRules, hfirst record]
      cases hleave : pruning.leave? record with
      | none => rfl
      | some left => exact ih left

theorem applyAll_of_prunes (h : List.Forall₂ (Prunes siblings) rules prunings)
    (classes : List ClassRecord) :
    applyAll siblings rules classes = .ok (classes.filterMap (together prunings).leave?) := by
  induction classes with
  | nil => rfl
  | cons record rest ih =>
      rw [applyAll, applyRules_of_prunes h record, ih, List.filterMap_cons]
      cases (together prunings).leave? record <;> rfl

/-- What the standard rules take out. -/
def standardPrunings (siblings : Siblings) : List Pruning :=
  [⟨fun _ => false, fun field => field.2.access.isVisible, fun method => method.2.access.isVisible,
      fun _ => true⟩,
    ⟨fun _ => false, fun _ => true, fun method => !isLambda method.2, fun _ => true⟩,
    ⟨fun _ => false, fun _ => true, fun _ => true, fun use => keepsReference siblings use.1⟩,
    ⟨fun name => isAnonymousName (Text.afterLast (· = '/') name.toList), fun _ => true,
      fun _ => true, fun _ => true⟩]

theorem prunes_standard (siblings : Siblings) :
    List.Forall₂ (Prunes siblings) standard.rules (standardPrunings siblings) := by
  have hall : ∀ {α : Type} (entries : List α), entries.filter (fun _ => true) = entries :=
    fun entries => List.filter_eq_self.mpr fun _ _ => rfl
  refine .cons ?_ (.cons ?_ (.cons ?_ (.cons ?_ .nil))) <;> intro record
  · simp [dropPrivate, leave?, prune, hall]
  · simp [dropLambdas, leave?, prune, hall]
  · simp [dropSelfReferences, leave?, prune, hall]
  · have hprune : ∀ dropsName, (Pruning.mk dropsName (fun _ => true) (fun _ => true)
        (fun _ => true)).prune record = record := fun _ => by simp [prune, hall]
    simp only [dropAnonymous, leave?, hprune]
    rfl

theorem leave?_standard (classes : List ClassRecord) (record : ClassRecord) :
    (together (standardPrunings (siblingsOf classes))).leave? record =
      if record.IsAnonymous then none else some (pruned classes record) := by
  have huse : ∀ use : Reference × Nat, keepsReference (siblingsOf classes) use.1 =
      decide (¬ IsInternal classes use.1) := by
    intro use
    rw [Bool.eq_iff_iff, decide_eq_true_iff, isInternal_iff, Bool.not_eq_false]
  have hname : isAnonymousName (Text.afterLast (· = '/') record.name.toList) =
      decide record.IsAnonymous := by
    rw [Bool.eq_iff_iff, decide_eq_true_iff, record.isAnonymous_iff]
    rfl
  simp [together, standardPrunings, leave?, prune, pruned, huse, hname]

theorem filterMap_leave? (classes order : List ClassRecord) :
    order.filterMap (together (standardPrunings (siblingsOf classes))).leave? =
      survivors classes order := by
  unfold survivors
  induction order with
  | nil => rfl
  | cons record rest ih =>
      rw [List.filterMap_cons, leave?_standard, List.filter_cons, ih]
      by_cases hname : record.IsAnonymous <;> simp [hname]

/-- Where an artifact has the classes that references are judged by, the standard rules leave what
is said in words, in whatever order they are applied. -/
theorem sanitize_of_siblings (hrules : rules.Perm standard.rules) {classes order : List ClassRecord}
    (hsame : siblingsOf order = siblingsOf classes) :
    (Sanitizer.mk rules).sanitize order = .ok (survivors classes order) := by
  obtain ⟨prunings, hprunes, hperm⟩ :=
    List.perm_comp_forall₂ hrules (prunes_standard (siblingsOf order))
  unfold sanitize
  rw [applyAll_of_prunes hprunes, together_perm hperm, hsame, filterMap_leave?]

/-! ## Other orders of the classes -/

theorem standsFor_iff_mem {classes : List ClassRecord}
    (hdistinct : (classes.map ClassRecord.name).Nodup) {name : String} {record : ClassRecord} :
    StandsFor classes name record ↔ record ∈ classes ∧ record.name = name := by
  constructor
  · rintro ⟨before, after, rfl, hname, _⟩
    exact ⟨by simp, hname⟩
  · rintro ⟨hmem, rfl⟩
    obtain ⟨before, after, rfl⟩ := List.append_of_mem hmem
    refine ⟨before, after, rfl, rfl, ?_⟩
    intro other hother hname
    rw [List.map_append, List.map_cons] at hdistinct
    have hfirst := (List.nodup_cons.mp (List.nodup_append.mp hdistinct).2.1).1
    exact hfirst (List.mem_map.mpr ⟨other, hother, hname⟩)

theorem siblingsOf_perm {classes order : List ClassRecord}
    (hdistinct : (classes.map ClassRecord.name).Nodup) (hperm : order.Perm classes) :
    siblingsOf order = siblingsOf classes := by
  have hreordered : (order.map ClassRecord.name).Nodup := (hperm.map _).nodup_iff.mpr hdistinct
  funext name
  apply Option.ext
  intro record
  rw [siblingsOf_eq_some_iff, siblingsOf_eq_some_iff, standsFor_iff_mem hreordered,
    standsFor_iff_mem hdistinct, hperm.mem_iff]

/-! ## A second pass -/

theorem isAnonymous_congr {record other : ClassRecord} (h : other.name = record.name) :
    other.IsAnonymous ↔ record.IsAnonymous := by
  unfold ClassRecord.IsAnonymous ClassRecord.simpleNameChars
  rw [h]

/-- A class that is left over and is the last one of its name was the last one before, too. -/
theorem standsFor_survivors {classes : List ClassRecord} {name : String} {left : ClassRecord}
    (h : StandsFor (survivors classes classes) name left) :
    ∃ record, StandsFor classes name record ∧ left = pruned classes record := by
  obtain ⟨before, after, hcut, rfl, hafter⟩ := h
  obtain ⟨_, kept, hkept, rfl, hlast⟩ := List.map_eq_append_iff.mp hcut
  obtain ⟨record, later, rfl, rfl, rfl⟩ := List.map_eq_cons_iff.mp hlast
  obtain ⟨front, back, hclasses, rfl, hback⟩ := List.filter_eq_append_iff.mp hkept
  obtain ⟨middle, rest, rfl, _, hrecord, rfl⟩ := List.filter_eq_cons_iff.mp hback
  refine ⟨record, ⟨front ++ middle, rest, ?_, rfl, ?_⟩, rfl⟩
  · rw [hclasses, List.append_assoc]
  · intro other hother hname
    -- a class is dropped by its name, so another one of that name would have been left over
    have hkept : ¬ other.IsAnonymous := by
      rw [isAnonymous_congr hname]
      exact of_decide_eq_true hrecord
    exact hafter _ (List.mem_map_of_mem (List.mem_filter.mpr ⟨hother, decide_eq_true hkept⟩)) hname

theorem memberAccess?_pruned {classes : List ClassRecord} {record : ClassRecord}
    (hkeys : record.HasUniqueKeys) {member : String} {kind : RefKind} {access : Access}
    (h : (pruned classes record).memberAccess? member kind = some access) :
    record.memberAccess? member kind = some access := by
  cases kind with
  | field =>
      obtain ⟨info, hinfo, rfl⟩ := Option.map_eq_some_iff.mp h
      exact Option.map_eq_some_iff.mpr ⟨info, Sorted.find?_of_find?_filter hkeys.1 hinfo, rfl⟩
  | method =>
      obtain ⟨info, hinfo, rfl⟩ := Option.map_eq_some_iff.mp h
      exact Option.map_eq_some_iff.mpr ⟨info, Sorted.find?_of_find?_filter hkeys.2 hinfo, rfl⟩
  | classRef | annotUse | parameter => cases h

/-- What tells nothing after a pass told nothing before it. -/
theorem isInternal_of_survivors {classes : List ClassRecord}
    (hkeys : ∀ record ∈ classes, record.HasUniqueKeys) {reference : Reference}
    (h : IsInternal (survivors classes classes) reference) : IsInternal classes reference := by
  obtain ⟨left, access, hleft, haccess, htells⟩ := h
  obtain ⟨record, hrecord, rfl⟩ := standsFor_survivors hleft
  have hmem : record ∈ classes := by
    obtain ⟨before, after, rfl, _⟩ := hrecord
    simp
  exact ⟨record, access, hrecord, memberAccess?_pruned (hkeys record hmem) haccess, htells⟩

theorem pruned_pruned {classes left : List ClassRecord} (record : ClassRecord)
    (h : ∀ reference, IsInternal left reference → IsInternal classes reference) :
    pruned left (pruned classes record) = pruned classes record := by
  have huse : (pruned classes record).references.filter (fun use => ¬ IsInternal left use.1) =
      (pruned classes record).references := by
    apply List.filter_eq_self.mpr
    intro use huse
    have hkept := of_decide_eq_true (List.mem_filter.mp huse).2
    exact decide_eq_true fun hinternal => hkept (h _ hinternal)
  unfold pruned at huse ⊢
  simp only [ClassRecord.mk.injEq, true_and]
  exact ⟨by simp, by simp, huse⟩

/-- Nothing more is taken out of what is left. -/
theorem survivors_survivors {classes : List ClassRecord}
    (hkeys : ∀ record ∈ classes, record.HasUniqueKeys) :
    survivors (survivors classes classes) (survivors classes classes) =
      survivors classes classes := by
  have hnames : (survivors classes classes).filter (fun record => ¬ record.IsAnonymous) =
      survivors classes classes := by
    apply List.filter_eq_self.mpr
    intro left hleft
    obtain ⟨record, hrecord, rfl⟩ := List.mem_map.mp hleft
    have hkept := of_decide_eq_true (List.mem_filter.mp hrecord).2
    exact decide_eq_true ((not_congr (isAnonymous_congr rfl)).mpr hkept)
  have hprune : (survivors classes classes).map (pruned (survivors classes classes)) =
      survivors classes classes := by
    refine (List.map_congr_left ?_).trans (List.map_id' _)
    intro left hleft
    obtain ⟨record, _, rfl⟩ := List.mem_map.mp hleft
    exact pruned_pruned record fun _ => isInternal_of_survivors hkeys
  rw [survivors, hnames, hprune]

/-- The standard rules leave exactly what is left in words, in whatever order they are applied.
Where no two classes have one name, another order of the classes gives the same in that order.
Nothing more is taken out of what is left. -/
theorem sanitize_exactly (classes : List ClassRecord) :
    (∀ rules, rules.Perm standard.rules →
      (Sanitizer.mk rules).sanitize classes = .ok (survivors classes classes)) ∧
    ((classes.map ClassRecord.name).Nodup →
      ∀ rules order, rules.Perm standard.rules → order.Perm classes →
        (Sanitizer.mk rules).sanitize order = .ok (survivors classes order)) ∧
    ((∀ record ∈ classes, record.HasUniqueKeys) →
      ∀ rules, rules.Perm standard.rules →
        (Sanitizer.mk rules).sanitize (survivors classes classes) =
          .ok (survivors classes classes)) := by
  refine ⟨?_, ?_, ?_⟩
  · intro rules hrules
    exact sanitize_of_siblings hrules rfl
  · intro hdistinct rules order hrules horder
    exact sanitize_of_siblings hrules (siblingsOf_perm hdistinct horder)
  · intro hkeys rules hrules
    rw [sanitize_of_siblings hrules rfl, survivors_survivors hkeys]

/-- A class with a private method, a class that calls it and a method of another artifact, and an
anonymous class. -/
def sampleClasses : List ClassRecord :=
  [{ ClassRecord.empty "a/Util" with
      interfaces := ["a/Task"]
      methods := [("help()V", ⟨"help", "()V", ⟨2⟩, []⟩), ("open()V", ⟨"open", "()V", ⟨1⟩, []⟩)] },
    { ClassRecord.empty "a/User" with
      references := [(⟨"a/Util", "help()V", .method⟩, 2), (⟨"a/Util", "open()V", .method⟩, 1),
        (⟨"b/Api", "help()V", .method⟩, 3)] },
    ClassRecord.empty "a/User$1"]

theorem sanitize_sampleClasses :
    (sampleClasses.map ClassRecord.name).Nodup ∧
      (∀ record ∈ sampleClasses, record.HasUniqueKeys) ∧
      standard.sanitize sampleClasses = .ok (survivors sampleClasses sampleClasses) ∧
      (Sanitizer.mk standard.rules.reverse).sanitize sampleClasses.reverse =
        .ok (survivors sampleClasses sampleClasses.reverse) ∧
      standard.sanitize (survivors sampleClasses sampleClasses) =
        .ok (survivors sampleClasses sampleClasses) ∧
      (survivors sampleClasses sampleClasses).map (fun record =>
          (record.name, record.methods.map Prod.fst, record.references)) =
        [("a/Util", ["open()V"], []),
          ("a/User", [],
            [(⟨"a/Util", "open()V", .method⟩, 1), (⟨"b/Api", "help()V", .method⟩, 3)])] := by
  have hdistinct : (sampleClasses.map ClassRecord.name).Nodup := by decide
  have hkeys : ∀ record ∈ sampleClasses, record.HasUniqueKeys := by
    unfold ClassRecord.HasUniqueKeys
    decide
  obtain ⟨hrules, horder, hagain⟩ := sanitize_exactly sampleClasses
  refine ⟨hdistinct, hkeys, hrules _ (.refl _), ?_, hagain hkeys _ (.refl _), by decide +kernel⟩
  exact horder hdistinct _ _ (List.reverse_perm _) (List.reverse_perm _)

end Sanitizer

end ModCatalog
