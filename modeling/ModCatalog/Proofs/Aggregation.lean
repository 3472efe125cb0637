import Mathlib.Algebra.BigOperators.Group.List.Basic
import Mathlib.Algebra.GroupWithZero.Nat
import Mathlib.Data.List.Nodup
import Mathlib.Data.List.Perm.Basic
import ModCatalog.Aggregate
import ModCatalog.Proofs.ClassFile.References

/-!
# Gathering classes

The rows that are gathered from classes conserve what their records say.  Each member has one row
with all its uses, whatever the order of the records, and each class name has the rows of the first
record with that name.
-/

namespace ModCatalog

open ClassFile

namespace Aggregate

/-! ## Uses -/

section Uses

variable {uses others : List (Reference × Nat)} {reference : Reference}

/-- The sum of all counts that a list of uses states of a reference. -/
def total (reference : Reference) (uses : List (Reference × Nat)) : Nat :=
  ((uses.filter fun use => use.1 = reference).map Prod.snd).sum

@[simp] theorem total_nil : total reference [] = 0 := rfl

theorem total_cons (use : Reference × Nat) :
    total reference (use :: uses) =
      (if use.1 = reference then use.2 else 0) + total reference uses := by
  unfold total
  by_cases hsame : use.1 = reference <;> simp [hsame]

theorem total_append :
    total reference (uses ++ others) = total reference uses + total reference others := by
  simp [total]

theorem total_perm (h : uses.Perm others) : total reference uses = total reference others :=
  ((h.filter _).map _).sum_eq

theorem total_eq_zero (h : reference ∉ uses.map Prod.fst) : total reference uses = 0 := by
  induction uses with
  | nil => rfl
  | cons use rest ih =>
      simp only [List.map_cons, List.mem_cons, not_or] at h
      rw [total_cons, if_neg (Ne.symm h.1), ih h.2]

/-- The table of a record states one count of each reference. -/
theorem total_references {record : ClassRecord} (hsorted : Sorted.IsSorted record.references) :
    total reference record.references = record.uses reference := by
  unfold ClassRecord.uses
  generalize record.references = entries at hsorted
  induction entries with
  | nil => rfl
  | cons entry rest ih =>
      obtain ⟨key, count⟩ := entry
      obtain ⟨hfirst, hrest⟩ := List.pairwise_cons.mp hsorted
      rw [total_cons]
      by_cases hsame : key = reference
      · have habsent : reference ∉ rest.map Prod.fst := by
          intro hmem
          obtain ⟨entry, hentry, rfl⟩ := List.mem_map.mp hmem
          have hbefore := hfirst entry hentry
          rw [hsame] at hbefore
          exact Std.Irrefl.irrefl _ hbefore
        simp [hsame, total_eq_zero habsent, Sorted.find?]
      · simp [hsame, Sorted.find?_cons_ne (Ne.symm hsame), ih hrest]

end Uses

/-! ## Runs -/

section Runs

variable {uses : List (Reference × Nat)} {reference : Reference}

/-- A row as a use that is stated once. -/
def useOf (row : ReferenceRow) : Reference × Nat := (row.reference, row.count)

/-- Rows with one more use in front. -/
def putFirst (use : Reference × Nat) : List ReferenceRow → List ReferenceRow
  | [] => [⟨use.1, use.2⟩]
  | row :: rows =>
      if row.reference = use.1 then ⟨use.1, use.2 + row.count⟩ :: rows
      else ⟨use.1, use.2⟩ :: row :: rows

theorem sumRuns_cons (use : Reference × Nat) :
    sumRuns (use :: uses) = putFirst use (sumRuns uses) := by
  rw [sumRuns]
  cases sumRuns uses <;> rfl

variable {use : Reference × Nat} {rows : List ReferenceRow}

theorem total_putFirst :
    total reference ((putFirst use rows).map useOf) =
      (if use.1 = reference then use.2 else 0) + total reference (rows.map useOf) := by
  cases rows with
  | nil => simp [putFirst, total_cons, useOf]
  | cons row rows =>
      unfold putFirst
      by_cases hsame : row.reference = use.1
      · by_cases hkey : use.1 = reference <;>
          simp [total_cons, useOf, hsame, hkey, Nat.add_assoc]
      · simp [total_cons, useOf, hsame]

theorem sum_putFirst :
    ((putFirst use rows).map ReferenceRow.count).sum =
      use.2 + (rows.map ReferenceRow.count).sum := by
  cases rows with
  | nil => simp [putFirst]
  | cons row rows =>
      unfold putFirst
      by_cases hsame : row.reference = use.1 <;> simp [hsame, Nat.add_assoc]

theorem mem_references_putFirst :
    reference ∈ (putFirst use rows).map ReferenceRow.reference ↔
      reference = use.1 ∨ reference ∈ rows.map ReferenceRow.reference := by
  cases rows with
  | nil => simp [putFirst]
  | cons row rows =>
      unfold putFirst
      by_cases hsame : row.reference = use.1 <;> simp [hsame]

theorem pairwise_putFirst (hrows : rows.Pairwise fun a b => a.reference < b.reference)
    (hfirst : ∀ row ∈ rows, ¬row.reference < use.1) :
    (putFirst use rows).Pairwise fun a b => a.reference < b.reference := by
  cases rows with
  | nil => simp [putFirst]
  | cons row rows =>
      obtain ⟨hnext, hlater⟩ := List.pairwise_cons.mp hrows
      by_cases hsame : row.reference = use.1
      · rw [putFirst, if_pos hsame]
        rw [hsame] at hnext
        exact List.pairwise_cons.mpr ⟨hnext, hlater⟩
      · rw [putFirst, if_neg hsame]
        -- what is neither the same nor before comes after
        have hafter : use.1 < row.reference := by
          rcases Std.Trichotomous.rel_or_eq_or_rel_swap (α := Reference) (r := (· < ·))
            (a := use.1) (b := row.reference) with hlt | heq | hgt
          · exact hlt
          · exact absurd heq.symm hsame
          · exact absurd hgt (hfirst row List.mem_cons_self)
        refine List.pairwise_cons.mpr ⟨?_, hrows⟩
        intro other hother
        rcases List.mem_cons.mp hother with rfl | hmem
        · exact hafter
        · exact Trans.trans hafter (hnext other hmem)

/-- Putting neighbours together keeps the sum of all counts of each reference. -/
theorem total_sumRuns : total reference ((sumRuns uses).map useOf) = total reference uses := by
  induction uses with
  | nil => rfl
  | cons use rest ih => rw [sumRuns_cons, total_putFirst, ih, total_cons]

theorem sum_sumRuns : ((sumRuns uses).map ReferenceRow.count).sum = (uses.map Prod.snd).sum := by
  induction uses with
  | nil => rfl
  | cons use rest ih => rw [sumRuns_cons, sum_putFirst, ih, List.map_cons, List.sum_cons]

theorem mem_references_sumRuns :
    reference ∈ (sumRuns uses).map ReferenceRow.reference ↔ reference ∈ uses.map Prod.fst := by
  induction uses with
  | nil => simp [sumRuns]
  | cons use rest ih =>
      rw [sumRuns_cons, mem_references_putFirst, ih, List.map_cons, List.mem_cons]

/-- In a list of uses in order, each reference gets one row. -/
theorem pairwise_sumRuns (hordered : uses.Pairwise fun a b => ¬b.1 < a.1) :
    (sumRuns uses).Pairwise fun a b => a.reference < b.reference := by
  induction uses with
  | nil => exact List.Pairwise.nil
  | cons use rest ih =>
      obtain ⟨hfirst, hrest⟩ := List.pairwise_cons.mp hordered
      rw [sumRuns_cons]
      apply pairwise_putFirst (ih hrest)
      intro row hrow
      have hkey := mem_references_sumRuns.mp (List.mem_map_of_mem hrow)
      obtain ⟨entry, hentry, hsame⟩ := List.mem_map.mp hkey
      rw [← hsame]
      exact hfirst entry hentry

end Runs

/-! ## Rows of references -/

/-- What the rows of references tell of the records that were gathered. -/
structure TellsUses (rows : List ReferenceRow) (records : List ClassRecord) : Prop where
  ordered : rows.Pairwise fun a b => a.reference < b.reference
  mem_iff {row : ReferenceRow} : row ∈ rows ↔
    (∃ record ∈ records, row.reference ∈ record.references.map Prod.fst) ∧
      row.count = (records.map fun record => record.uses row.reference).sum
  sum_eq : (rows.map ReferenceRow.count).sum = (records.map ClassRecord.referenceCount).sum

/-- Whether the references of each record are a table. -/
def AreSorted (records : List ClassRecord) : Prop :=
  ∀ record ∈ records, Sorted.IsSorted record.references

section Rows

variable {aggregate : Aggregate} {records others : List ClassRecord} {rows : List ReferenceRow}

theorem nodup_of_ordered (h : rows.Pairwise fun a b => a.reference < b.reference) : rows.Nodup := by
  refine h.imp ?_
  rintro row _ hlt rfl
  exact Std.Irrefl.irrefl row.reference hlt

/-- A row among rows in order has all that they count of its reference. -/
theorem total_of_mem (h : rows.Pairwise fun a b => a.reference < b.reference) {row : ReferenceRow}
    (hrow : row ∈ rows) : total row.reference (rows.map useOf) = row.count := by
  induction rows with
  | nil => cases hrow
  | cons first rest ih =>
      obtain ⟨hfirst, hrest⟩ := List.pairwise_cons.mp h
      rw [List.map_cons, total_cons]
      rcases List.mem_cons.mp hrow with rfl | hlater
      · have habsent : row.reference ∉ (rest.map useOf).map Prod.fst := by
          intro hmem
          rw [List.map_map, List.mem_map] at hmem
          obtain ⟨other, hother, hsame⟩ := hmem
          have hlt := hfirst other hother
          rw [← hsame] at hlt
          exact Std.Irrefl.irrefl _ hlt
        simp [total_eq_zero habsent, useOf]
      · have hdiffer : first.reference ≠ row.reference := by
          intro hsame
          have hlt := hfirst row hlater
          rw [hsame] at hlt
          exact Std.Irrefl.irrefl _ hlt
        simp [useOf, hdiffer, ih hrest hlater]

/-- A row among rows in order is told by its reference and what they count of it. -/
theorem mem_iff_total (h : rows.Pairwise fun a b => a.reference < b.reference)
    {row : ReferenceRow} : row ∈ rows ↔ row.reference ∈ rows.map ReferenceRow.reference ∧
      row.count = total row.reference (rows.map useOf) := by
  constructor
  · intro hrow
    exact ⟨List.mem_map_of_mem hrow, (total_of_mem h hrow).symm⟩
  · rintro ⟨hreference, hcount⟩
    obtain ⟨found, hfound, hsame⟩ := List.mem_map.mp hreference
    have hequal : found.count = row.count := by rw [hcount, ← hsame, total_of_mem h hfound]
    have hrow : found = row := by
      cases found
      cases row
      simp_all
    rw [← hrow]
    exact hfound

theorem eq_of_mem_iff (hrows : rows.Pairwise fun a b => a.reference < b.reference)
    {rows' : List ReferenceRow} (hrows' : rows'.Pairwise fun a b => a.reference < b.reference)
    (hmem : ∀ row, row ∈ rows ↔ row ∈ rows') : rows = rows' := by
  have hperm : rows.Perm rows' :=
    (List.perm_ext_iff_of_nodup (nodup_of_ordered hrows) (nodup_of_ordered hrows')).mpr hmem
  refine hperm.eq_of_pairwise ?_ hrows hrows'
  intro a b _ _ hab hba
  exact absurd (Trans.trans hab hba : a.reference < a.reference) (Std.Irrefl.irrefl _)

/-- What the rows tell does not depend on the order of the records, and it says all of the rows. -/
theorem TellsUses.eq {rows' : List ReferenceRow} (h : TellsUses rows records)
    (h' : TellsUses rows' others) (hperm : others.Perm records) : rows' = rows := by
  apply eq_of_mem_iff h'.ordered h.ordered
  intro row
  rw [h'.mem_iff, h.mem_iff, (hperm.map fun record => record.uses row.reference).sum_eq]
  simp only [hperm.mem_iff]

theorem uses_addClasses : (aggregate.addClasses records).uses.Perm
    (records.flatMap ClassRecord.references ++ aggregate.uses) := by
  unfold addClasses
  induction records generalizing aggregate with
  | nil => exact List.Perm.refl _
  | cons record rest ih =>
      rw [List.foldl_cons, List.flatMap_cons, List.append_assoc]
      refine ih.trans ?_
      have hswap : (rest.flatMap ClassRecord.references ++ record.references).Perm
          (record.references ++ rest.flatMap ClassRecord.references) := List.perm_append_comm
      simpa [addClass] using hswap.append_right aggregate.uses

theorem total_flatMap (h : AreSorted records) (reference : Reference) :
    total reference (records.flatMap ClassRecord.references) =
      (records.map fun record => record.uses reference).sum := by
  induction records with
  | nil => rfl
  | cons record rest ih =>
      obtain ⟨hrecord, hrest⟩ := List.forall_mem_cons.mp h
      rw [List.flatMap_cons, total_append, total_references hrecord, ih hrest, List.map_cons,
        List.sum_cons]

theorem sum_flatMap : ((records.flatMap ClassRecord.references).map Prod.snd).sum =
    (records.map ClassRecord.referenceCount).sum := by
  induction records with
  | nil => rfl
  | cons record rest ih =>
      rw [List.flatMap_cons, List.map_append, List.sum_append, ih, List.map_cons, List.sum_cons]
      rfl

theorem isBefore_trans (a b c : Reference × Nat) (hab : isBefore a b) (hbc : isBefore b c) :
    isBefore a c := by
  simp only [isBefore, Bool.not_eq_true', decide_eq_false_iff_not, Reference.lt_iff_sortKey_lt,
    not_lt] at hab hbc ⊢
  exact hab.trans hbc

theorem isBefore_total (a b : Reference × Nat) : isBefore a b || isBefore b a := by
  simp only [isBefore, Bool.or_eq_true, Bool.not_eq_true', decide_eq_false_iff_not,
    Reference.lt_iff_sortKey_lt, not_lt]
  exact le_total _ _

/-- The rows of what was gathered from records alone. -/
theorem tellsUses_addClasses (h : AreSorted records) :
    TellsUses (empty.addClasses records).referenceRows records := by
  have hsort := List.mergeSort_perm (empty.addClasses records).uses isBefore
  have huses : ((empty.addClasses records).uses.mergeSort isBefore).Perm
      (records.flatMap ClassRecord.references) := by
    simpa [empty] using hsort.trans uses_addClasses
  have hordered : (empty.addClasses records).referenceRows.Pairwise
      fun a b => a.reference < b.reference := by
    apply pairwise_sumRuns
    refine (List.pairwise_mergeSort isBefore_trans isBefore_total _).imp ?_
    intro a b hbefore
    simpa [isBefore] using hbefore
  have htotal : ∀ reference,
      total reference ((empty.addClasses records).referenceRows.map useOf) =
        (records.map fun record => record.uses reference).sum := by
    intro reference
    rw [referenceRows, total_sumRuns, total_perm huses, total_flatMap h]
  have hmem : ∀ reference,
      reference ∈ (empty.addClasses records).referenceRows.map ReferenceRow.reference ↔
        ∃ record ∈ records, reference ∈ record.references.map Prod.fst := by
    intro reference
    rw [referenceRows, mem_references_sumRuns, (huses.map Prod.fst).mem_iff, List.map_flatMap,
      List.mem_flatMap]
  have hsum : ((empty.addClasses records).referenceRows.map ReferenceRow.count).sum =
      (records.map ClassRecord.referenceCount).sum := by
    rw [referenceRows, sum_sumRuns, (huses.map Prod.snd).sum_eq, sum_flatMap]
  exact ⟨hordered, fun {row} => by rw [mem_iff_total hordered, hmem, htotal], hsum⟩

end Rows

/-! ## Rows of classes -/

/-- The records that are the first with their name, in the order in which the names occur. -/
def firstNamed : List ClassRecord → List ClassRecord
  | [] => []
  | record :: rest => record :: (firstNamed rest).filter fun later => later.name ≠ record.name

/-- What is left out anyway can be left out before. -/
theorem eraseDups_filter (keep : String → Bool) (names : List String) :
    (names.filter keep).eraseDups = names.eraseDups.filter keep := by
  induction hlength : names.length using Nat.strong_induction_on generalizing names with
  | _ length ih =>
      cases names with
      | nil => rfl
      | cons name rest =>
          have hshorter : (rest.filter fun other => !other == name).length < length := by
            have hle := List.length_filter_le (fun other => !other == name) rest
            simp only [List.length_cons] at hlength
            omega
          have hrest := ih _ hshorter _ rfl
          rw [List.eraseDups_cons]
          by_cases hkeep : keep name = true
          · rw [List.filter_cons_of_pos hkeep, List.filter_cons_of_pos hkeep, List.eraseDups_cons,
              List.filter_comm, hrest]
          · have hsame : (rest.filter fun other => !other == name).filter keep =
                rest.filter keep := by
              rw [List.filter_filter]
              apply List.filter_congr
              intro other _
              by_cases hother : other = name <;> simp_all
            rw [List.filter_cons_of_neg hkeep, List.filter_cons_of_neg hkeep, ← hrest, hsame]

theorem names_firstNamed (records : List ClassRecord) :
    (firstNamed records).map ClassRecord.name = (records.map ClassRecord.name).eraseDups := by
  induction records with
  | nil => rfl
  | cons record rest ih =>
      rw [firstNamed, List.map_cons, List.map_cons, List.eraseDups_cons, eraseDups_filter, ← ih,
        List.filter_map]
      congr 2
      apply List.filter_congr
      intro other _
      by_cases hname : other.name = record.name <;> simp [hname]

theorem find?_of_mem_firstNamed {records : List ClassRecord} {record : ClassRecord}
    (h : record ∈ firstNamed records) :
    records.find? (fun other => other.name = record.name) = some record := by
  induction records with
  | nil => cases h
  | cons first rest ih =>
      rcases List.mem_cons.mp h with rfl | hlater
      · simp
      · obtain ⟨hmem, hname⟩ := List.mem_filter.mp hlater
        have hdiffer : record.name ≠ first.name := by simpa using hname
        rw [List.find?_cons_of_neg (by simpa using hdiffer.symm), ih hmem]

/-- Each name in the order in which they occur, with the first record that has it. -/
theorem firstNamed_eq (records : List ClassRecord) : firstNamed records =
    (records.map ClassRecord.name).eraseDups.filterMap fun name =>
      records.find? fun record => record.name = name := by
  rw [← names_firstNamed, List.filterMap_map]
  have hself : ∀ record ∈ firstNamed records,
      ((fun name => records.find? fun other => other.name = name) ∘ ClassRecord.name) record =
        some record := fun record hrecord => find?_of_mem_firstNamed hrecord
  rw [List.filterMap_congr hself, List.filterMap_some]

/-- A value under a new key stands at the end. -/
theorem write_of_not_mem {α : Type} {key : String} (value : α) {entries : List (String × α)}
    (h : key ∉ entries.map Prod.fst) :
    Table.write key value entries = entries ++ [(key, value)] := by
  induction entries with
  | nil => rfl
  | cons entry rest ih =>
      simp only [List.map_cons, List.mem_cons, not_or] at h
      simp [Table.write, h.1, ih h.2]

theorem values_foldl_putNew {α : Type} (rowOf : ClassRecord → α) (table : Table String α)
    (records : List ClassRecord) :
    (records.foldl (fun table record => table.putNew record.name (rowOf record)) table).values =
      table.values ++
        ((firstNamed records).filter fun record => record.name ∉ table.keys).map rowOf := by
  induction records generalizing table with
  | nil => simp [firstNamed]
  | cons record rest ih =>
      rw [List.foldl_cons, ih, firstNamed, Table.putNew]
      by_cases hknown : record.name ∈ table.keys
      · obtain ⟨old, hold⟩ := Option.isSome_iff_exists.mp (Table.mem_keys.mp hknown)
        have hsame : ((firstNamed rest).filter fun later => later.name ≠ record.name).filter
            (fun later => later.name ∉ table.keys) =
            (firstNamed rest).filter fun later => later.name ∉ table.keys := by
          rw [List.filter_filter]
          apply List.filter_congr
          intro later _
          by_cases hlater : later.name = record.name <;> simp [hlater, hknown]
        rw [hold, List.filter_cons_of_neg (by simpa using hknown), hsame]
      · have hnone : table.get? record.name = none := by
          rwa [Table.mem_keys, Option.not_isSome_iff_eq_none] at hknown
        have hvalues : (table.put record.name (rowOf record)).values =
            table.values ++ [rowOf record] := by
          simp [Table.put, Table.values, write_of_not_mem _ hknown]
        have hsame : ((firstNamed rest).filter fun later => later.name ≠ record.name).filter
            (fun later => later.name ∉ table.keys) =
            (firstNamed rest).filter fun later =>
              later.name ∉ (table.put record.name (rowOf record)).keys := by
          rw [List.filter_filter, Table.keys_put, if_neg hknown]
          apply List.filter_congr
          intro later _
          simp [Bool.and_comm]
        rw [hnone, List.filter_cons_of_pos (by simpa using hknown), hsame]
        simp [hvalues]

theorem classes_addClasses (records : List ClassRecord) :
    (empty.addClasses records).classes.values = (firstNamed records).map ClassRow.ofRecord := by
  have hfold : (empty.addClasses records).classes = records.foldl
      (fun table record => table.putNew record.name (.ofRecord record)) Table.empty :=
    (List.foldl_hom classes fun _ _ => rfl).symm
  rw [hfold, values_foldl_putNew]
  simp [Table.empty, Table.values, Table.keys]

theorem inheritance_addClasses (records : List ClassRecord) :
    (empty.addClasses records).inheritance.values =
      (firstNamed records).map ClassRecord.inheritance := by
  have hfold : (empty.addClasses records).inheritance = records.foldl
      (fun table record => table.putNew record.name record.inheritance) Table.empty :=
    (List.foldl_hom Aggregate.inheritance fun _ _ => rfl).symm
  rw [hfold, values_foldl_putNew]
  simp [Table.empty, Table.values, Table.keys]

/-! ## What is gathered part by part -/

theorem foldl_addClasses (aggregate : Aggregate) (parts : List (List ClassRecord)) :
    parts.foldl addClasses aggregate = aggregate.addClasses parts.flatten :=
  List.foldl_flatten.symm

/-- However records are dealt out into parts, each reference has one row that counts its uses in all
of them, also in several with one name, and these rows do not depend on the order of the records.
Each name has the rows of the first record with that name, in the order in which the names occur. -/
theorem rows_conserve_uses (parts : List (List ClassRecord)) (hsorted : AreSorted parts.flatten)
    (knownHash : Option String) (metadata : Option ArtifactSummary) (indexedAt : Nat) :
    let rows := ((parts.foldl addClasses empty).toBatch knownHash metadata indexedAt).rows
    let firsts := (parts.flatten.map ClassRecord.name).eraseDups.filterMap fun name =>
      parts.flatten.find? fun record => record.name = name
    TellsUses rows.references parts.flatten ∧
      (∀ others : List (List ClassRecord), others.flatten.Perm parts.flatten →
        (others.foldl addClasses empty).referenceRows = rows.references) ∧
      rows.classes = firsts.map ClassRow.ofRecord ∧
      rows.inheritance = firsts.map ClassRecord.inheritance := by
  dsimp only
  have htells := tellsUses_addClasses hsorted
  rw [foldl_addClasses, ← firstNamed_eq]
  refine ⟨htells, ?_, classes_addClasses _, inheritance_addClasses _⟩
  intro others hperm
  have hothers : AreSorted others.flatten :=
    fun record hrecord => hsorted record (hperm.mem_iff.mp hrecord)
  rw [foldl_addClasses]
  exact htells.eq (tellsUses_addClasses hothers) hperm

/-! ### Two classes, one of them twice -/

def sampleRun : Reference := ⟨"x/Y", "run()V", .method⟩

def sampleGo : Reference := ⟨"x/Z", "go()V", .method⟩

def sampleParts : List (List ClassRecord) :=
  [[(ClassRecord.empty "a/A").withUses [sampleRun, sampleRun]],
    [(ClassRecord.empty "a/B").withUses [sampleGo, sampleRun],
      { (ClassRecord.empty "a/A").withUses [sampleRun] with superClass := some "a/B" }]]

theorem areSorted_sampleParts : AreSorted sampleParts.flatten := by
  have hcounted : ∀ name references, Sorted.IsSorted
      ((ClassRecord.empty name).withUses references).references := by
    intro name references
    apply ClassRecord.isSorted_withUses
    exact List.Pairwise.nil
  intro record hrecord
  simp only [sampleParts, List.flatten_cons, List.flatten_nil, List.append_nil, List.cons_append,
    List.nil_append, List.mem_cons, List.not_mem_nil, or_false] at hrecord
  rcases hrecord with rfl | rfl | rfl <;> exact hcounted _ _

/-- The uses of a class whose name occurs twice count twice, but it has the row of the first one. -/
theorem rows_of_sampleParts : AreSorted sampleParts.flatten ∧
    (⟨sampleRun, 4⟩ : ReferenceRow) ∈
      ((sampleParts.foldl addClasses empty).toBatch none none 0).rows.references ∧
    ((sampleParts.foldl addClasses empty).toBatch none none 0).rows.inheritance =
      [⟨"a/A", none, [], []⟩, ⟨"a/B", none, [], []⟩] := by
  obtain ⟨htells, _, _, hinheritance⟩ :=
    rows_conserve_uses sampleParts areSorted_sampleParts none none 0
  refine ⟨areSorted_sampleParts, htells.mem_iff.mpr ⟨?_, ?_⟩, ?_⟩
  · decide +kernel
  · decide +kernel
  · rw [hinheritance]
    decide +kernel

end Aggregate

end ModCatalog
