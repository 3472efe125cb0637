import Mathlib.Algebra.Group.Nat.Defs
import ModCatalog.Proofs.Store.RowChanges
import ModCatalog.Store.RowTables

/-!
# Rows under keys

Keys of one mod are in the order of their numbers as long as ten digits suffice, and no key of a mod
begins like those of another.  So a table of rows holds, for every mod by itself, what was written
for it in that order, whatever is appended, replaced and removed.
-/

namespace ModCatalog

/-! ## Digits -/

theorem ofDigitChars_padZeros (width n : Nat) :
    Nat.ofDigitChars 10 (Text.padZeros width (Nat.toDigits 10 n)) 0 = n := by
  unfold Text.padZeros
  rw [Nat.ofDigitChars_append, Nat.ofDigitChars_replicate_zero, Nat.mul_zero,
    Nat.ofDigitChars_ten_toDigits]

theorem isDigit_of_mem_padZeros {width n : Nat} {c : Char}
    (h : c ∈ Text.padZeros width (Nat.toDigits 10 n)) : c.isDigit := by
  rcases List.mem_append.mp h with hzero | hdigit
  · obtain rfl := List.eq_of_mem_replicate hzero
    rfl
  · exact Nat.isDigit_of_mem_toDigits (by decide) (by decide) hdigit

theorem length_padZeros_toDigits {width n : Nat} (hwidth : 0 < width) (hn : n < 10 ^ width) :
    (Text.padZeros width (Nat.toDigits 10 n)).length = width := by
  rw [Text.length_padZeros]
  exact Nat.max_eq_left ((Nat.length_toDigits_le_iff (by decide) hwidth).mpr hn)

theorem toNat_of_isDigit {c : Char} (hc : c.isDigit) : 48 ≤ c.toNat ∧ c.toNat ≤ 57 := by
  simpa [Char.isDigit, UInt32.le_iff_toNat_le] using hc

theorem ofDigitChars_lt {digits : List Char} (hdigits : ∀ c ∈ digits, c.isDigit) :
    Nat.ofDigitChars 10 digits 0 < 10 ^ digits.length := by
  induction digits with
  | nil => decide
  | cons c rest ih =>
      obtain ⟨hc, hrest⟩ := List.forall_mem_cons.mp hdigits
      have hbound := toNat_of_isDigit hc
      have hlt := ih hrest
      have hzero : '0'.toNat = 48 := rfl
      rw [Nat.ofDigitChars_cons, Nat.ofDigitChars_eq_ofDigitChars_zero, hzero, List.length_cons,
        Nat.pow_succ, Nat.mul_zero, Nat.zero_add]
      have hhead : 10 ^ rest.length * (c.toNat - 48) ≤ 10 ^ rest.length * 9 :=
        Nat.mul_le_mul_left _ (by omega)
      omega

/-- Digits of one length are in the order of the numbers that they write. -/
theorem lt_of_ofDigitChars_lt {digits others : List Char}
    (hlength : digits.length = others.length) (hdigits : ∀ c ∈ digits, c.isDigit)
    (hothers : ∀ c ∈ others, c.isDigit)
    (hlt : Nat.ofDigitChars 10 digits 0 < Nat.ofDigitChars 10 others 0) : digits < others := by
  induction digits generalizing others with
  | nil =>
      obtain rfl := List.length_eq_zero_iff.mp hlength.symm
      exact absurd hlt (Nat.lt_irrefl _)
  | cons c rest ih =>
      cases others with
      | nil => cases hlength
      | cons d later =>
          obtain ⟨hc, hrest⟩ := List.forall_mem_cons.mp hdigits
          obtain ⟨hd, hlater⟩ := List.forall_mem_cons.mp hothers
          have hsame : rest.length = later.length := Nat.succ.inj hlength
          have hbound := ofDigitChars_lt hlater
          have hzero : '0'.toNat = 48 := rfl
          rw [Nat.ofDigitChars_cons, Nat.ofDigitChars_cons, Nat.ofDigitChars_eq_ofDigitChars_zero,
            Nat.ofDigitChars_eq_ofDigitChars_zero (l := later), hsame, hzero, Nat.mul_zero,
            Nat.zero_add, Nat.zero_add] at hlt
          have hcNat := toNat_of_isDigit hc
          have hdNat := toNat_of_isDigit hd
          rw [List.cons_lt_cons_iff]
          rcases Nat.lt_trichotomy c.toNat d.toNat with hless | hequal | hmore
          · exact Or.inl hless
          · refine Or.inr ⟨Char.toNat_inj.mp hequal, ih hsame hrest hlater ?_⟩
            rw [hequal] at hlt
            omega
          · -- A larger first digit outweighs all digits after the smaller one.
            have hhead : 10 ^ later.length * (d.toNat - 48 + 1) ≤
                10 ^ later.length * (c.toNat - 48) := Nat.mul_le_mul_left _ (by omega)
            rw [Nat.mul_succ] at hhead
            omega

/-! ## Keys -/

theorem toList_rowFront (id : Nat) :
    (rowFront id).toList = Text.padZeros 20 (Nat.toDigits 10 id) ++ ['/'] := by
  simp [rowFront, decimal]

theorem toList_rowKey (id number : Nat) :
    (rowKey id number).toList =
      Text.padZeros 20 (Nat.toDigits 10 id) ++ '/' ::
        Text.padZeros 10 (Nat.toDigits 10 number) := by
  simp [rowKey, toList_rowFront, decimal]

theorem slash_not_mem (width n : Nat) : '/' ∉ Text.padZeros width (Nat.toDigits 10 n) := by
  intro hmem
  have hdigit := isDigit_of_mem_padZeros hmem
  cases hdigit

/-- What comes before the first separator can be told from what begins with it. -/
theorem eq_of_append_separator {separator : Char} {first second rest : List Char}
    (hfirst : separator ∉ first) (hsecond : separator ∉ second)
    (h : first ++ [separator] <+: second ++ separator :: rest) : first = second := by
  induction first generalizing second with
  | nil =>
      cases second with
      | nil => rfl
      | cons d later =>
          obtain ⟨rfl, _⟩ := List.cons_prefix_cons.mp h
          exact absurd List.mem_cons_self hsecond
  | cons c front ih =>
      cases second with
      | nil =>
          obtain ⟨rfl, _⟩ := List.cons_prefix_cons.mp h
          exact absurd List.mem_cons_self hfirst
      | cons d later =>
          obtain ⟨rfl, htail⟩ := List.cons_prefix_cons.mp h
          rw [ih (fun hmem => hfirst (List.mem_cons_of_mem _ hmem))
            (fun hmem => hsecond (List.mem_cons_of_mem _ hmem)) htail]

/-- No key begins like the keys of two mods. -/
theorem owner_unique {id other : Nat} {key : List Char}
    (hid : (rowFront id).toList <+: key) (hother : (rowFront other).toList <+: key) :
    id = other := by
  obtain ⟨rest, rfl⟩ := hother
  rw [toList_rowFront, toList_rowFront, List.append_assoc] at hid
  have hsame := eq_of_append_separator (slash_not_mem 20 id) (slash_not_mem 20 other) hid
  rw [← ofDigitChars_padZeros 20 id, hsame, ofDigitChars_padZeros]

theorem isPrefixOf_rowKey (id owner number : Nat) :
    (rowFront id).toList.isPrefixOf (rowKey owner number).toList = decide (id = owner) := by
  have howner : (rowFront owner).toList <+: (rowKey owner number).toList :=
    ⟨(decimal 10 number).toList, by simp [rowKey]⟩
  rw [Bool.eq_iff_iff, List.isPrefixOf_iff_prefix, decide_eq_true_eq]
  constructor
  · exact fun hid => owner_unique hid howner
  · rintro rfl
    exact howner

/-- The keys of a mod are in the order of their numbers. -/
theorem rowKey_lt_rowKey (id : Nat) {first second : Nat} (hlt : first < second)
    (hsecond : second < 10 ^ 10) : rowKey id first < rowKey id second := by
  rw [String.lt_iff, toList_rowKey, toList_rowKey]
  refine List.append_left_lt (List.cons_lt_cons_iff.mpr (Or.inr ⟨rfl, ?_⟩))
  refine lt_of_ofDigitChars_lt ?_ (fun _ => isDigit_of_mem_padZeros)
    (fun _ => isDigit_of_mem_padZeros) ?_
  · rw [length_padZeros_toDigits (by decide) (Nat.lt_trans hlt hsecond),
      length_padZeros_toDigits (by decide) hsecond]
  · rw [ofDigitChars_padZeros, ofDigitChars_padZeros]
    exact hlt

/-! ## One table -/

namespace Sorted

variable {α : Type} (keep : String → Bool) {key : String} {entries : List (String × α)}

/-- Keys that are not looked for may be written. -/
theorem filter_insert_of_not (hkey : keep key = false) (value : α) :
    (insert key value entries).filter (fun entry => keep entry.1) =
      entries.filter fun entry => keep entry.1 := by
  unfold insert
  induction entries with
  | nil => simp [alter, hkey]
  | cons first rest ih =>
      obtain ⟨k, old⟩ := first
      unfold alter
      split
      · simp [hkey]
      · split
        · next hsame =>
            subst hsame
            simp [hkey]
        · rw [List.filter_cons, List.filter_cons, ih]

/-- A key that comes after all that are looked for is found last. -/
theorem filter_insert_last (hsorted : IsSorted entries) (hkey : keep key = true)
    (hlast : ∀ entry ∈ entries, keep entry.1 = true → entry.1 < key) (value : α) :
    (insert key value entries).filter (fun entry => keep entry.1) =
      (entries.filter fun entry => keep entry.1) ++ [(key, value)] := by
  unfold insert
  induction entries with
  | nil => simp [alter, hkey]
  | cons first rest ih =>
      obtain ⟨k, old⟩ := first
      obtain ⟨hfirst, hrest⟩ := List.pairwise_cons.mp hsorted
      unfold alter
      split
      · next hlt =>
          -- All keys from here on are above the new one, so none of them is looked for.
          have hnone : ((k, old) :: rest).filter (fun entry => keep entry.1) = [] := by
            refine List.filter_eq_nil_iff.mpr fun entry hentry hkeep => ?_
            have habove : key < entry.1 := by
              rcases List.mem_cons.mp hentry with rfl | hlater
              · exact hlt
              · exact String.lt_trans hlt (hfirst entry hlater)
            exact String.lt_irrefl key (String.lt_trans habove (hlast entry hentry hkeep))
          rw [List.filter_cons, hnone]
          simp [hkey]
      · split
        · next hsame =>
            subst hsame
            exact absurd (hlast (key, old) List.mem_cons_self hkey) (String.lt_irrefl key)
        · have hlater := ih hrest fun entry hentry =>
            hlast entry (List.mem_cons_of_mem _ hentry)
          rw [List.filter_cons, List.filter_cons, hlater]
          split <;> rfl

end Sorted

namespace RowTable

variable {α : Type} {table : RowTable α} {id : Nat} {rows : List α}

/-- Whether certain rows, in this order and under the keys with their numbers, are the entries of a
mod in a table. -/
def Holds (table : RowTable α) (id : Nat) (rows : List α) : Prop :=
  table.under (rowFront id) = rows.zipIdx.map fun row => (rowKey id row.2, row.1)

theorem Holds.rowsOf_eq (hholds : table.Holds id rows) : table.rowsOf id = rows := by
  unfold rowsOf
  rw [hholds, List.map_map]
  exact List.zipIdx_map_fst 0 rows

theorem Holds.nextNumber_eq (hholds : table.Holds id rows) :
    table.nextNumber id = rows.length := by
  unfold nextNumber
  rw [hholds, List.length_map, List.length_zipIdx]

theorem holds_empty (id : Nat) : (empty : RowTable α).Holds id [] := rfl

/-- A row of a mod leaves the rows of others alone. -/
theorem under_put_of_ne {other number : Nat} (hother : other ≠ id) (row : α) :
    (table.put (rowKey id number) row).under (rowFront other) = table.under (rowFront other) := by
  refine Sorted.filter_insert_of_not
    (fun key => (rowFront other).toList.isPrefixOf key.toList) ?_ row
  rw [isPrefixOf_rowKey, decide_eq_false hother]

/-- The next row of a mod comes after those that it has. -/
theorem Holds.put (hholds : table.Holds id rows) (hfits : rows.length < 10 ^ 10) (row : α) :
    (table.put (rowKey id rows.length) row).Holds id (rows ++ [row]) := by
  have hlast : ∀ entry ∈ table.entries,
      (rowFront id).toList.isPrefixOf entry.1.toList = true →
        entry.1 < rowKey id rows.length := by
    intro entry hentry hfront
    have hmem : entry ∈ table.under (rowFront id) := List.mem_filter.mpr ⟨hentry, hfront⟩
    rw [hholds] at hmem
    obtain ⟨⟨old, number⟩, hold, rfl⟩ := List.mem_map.mp hmem
    have hnumber := List.snd_lt_of_mem_zipIdx hold
    exact rowKey_lt_rowKey id (by simpa using hnumber) hfits
  have hkey : (rowFront id).toList.isPrefixOf (rowKey id rows.length).toList = true := by
    rw [isPrefixOf_rowKey, decide_eq_true rfl]
  unfold Holds
  rw [List.zipIdx_append, List.map_append, ← hholds, Nat.zero_add]
  exact Sorted.filter_insert_last (fun key => (rowFront id).toList.isPrefixOf key.toList)
    table.sorted hkey hlast row

/-- Rows are written after those of their mod, in their order, and leave the rows of others
alone. -/
theorem Holds.foldl_put {more : List α} (hholds : table.Holds id rows)
    (hfits : rows.length + more.length ≤ 10 ^ 10) :
    ((more.zipIdx rows.length).foldl (fun table row => table.put (rowKey id row.2) row.1)
      table).Holds id (rows ++ more) := by
  induction more generalizing table rows with
  | nil => rwa [List.append_nil]
  | cons row rest ih =>
      have hlength : rows.length + 1 = (rows ++ [row]).length := by simp
      rw [List.length_cons] at hfits
      rw [List.zipIdx_cons, List.foldl_cons, List.append_cons, hlength]
      exact ih (hholds.put (by omega) row) (by rw [← hlength]; omega)

theorem under_foldl_put_of_ne {other : Nat} (hother : other ≠ id) (numbered : List (α × Nat)) :
    (numbered.foldl (fun table row => table.put (rowKey id row.2) row.1) table).under
      (rowFront other) = table.under (rowFront other) := by
  induction numbered generalizing table with
  | nil => rfl
  | cons row rest ih => exact ih.trans (under_put_of_ne hother row.1)

theorem Holds.putRows {more : List α} (hholds : table.Holds id rows)
    (hfits : rows.length + more.length ≤ 10 ^ 10) :
    (table.putRows id more).Holds id (rows ++ more) := by
  unfold RowTable.putRows
  rw [hholds.nextNumber_eq]
  exact hholds.foldl_put hfits

theorem Holds.putRows_of_ne {other : Nat} (hother : other ≠ id) (hholds : table.Holds other rows)
    (more : List α) : (table.putRows id more).Holds other rows :=
  (under_foldl_put_of_ne hother _).trans hholds

theorem entries_foldl_delete (keys : List String) (table : RowTable α) :
    (keys.foldl delete table).entries =
      table.entries.filter fun entry => !keys.contains entry.1 := by
  induction keys generalizing table with
  | nil => simp
  | cons key rest ih =>
      rw [List.foldl_cons, ih]
      unfold delete
      rw [List.filter_filter]
      refine List.filter_congr fun entry _ => ?_
      by_cases hkey : entry.1 = key <;> simp [hkey]

/-- What is left is what does not begin with the text. -/
theorem entries_deleteUnder (table : RowTable α) (front : String) :
    (table.deleteUnder front).entries =
      table.entries.filter fun entry => !front.toList.isPrefixOf entry.1.toList := by
  unfold deleteUnder
  rw [entries_foldl_delete]
  refine List.filter_congr fun entry hentry => congrArg not ?_
  rw [Bool.eq_iff_iff, List.contains_iff_mem, List.mem_map]
  constructor
  · rintro ⟨other, hother, hkey⟩
    rw [← hkey]
    exact (List.mem_filter.mp hother).2
  · intro hfront
    exact ⟨entry, List.mem_filter.mpr ⟨hentry, hfront⟩, rfl⟩

theorem holds_deleteUnder (table : RowTable α) (id : Nat) :
    (table.deleteUnder (rowFront id)).Holds id [] := by
  unfold Holds under
  rw [entries_deleteUnder, List.filter_filter]
  refine List.filter_eq_nil_iff.mpr fun entry _ => ?_
  simp

theorem under_deleteUnder_of_ne {other : Nat} (hother : other ≠ id) :
    (table.deleteUnder (rowFront id)).under (rowFront other) = table.under (rowFront other) := by
  unfold under
  rw [entries_deleteUnder, List.filter_filter]
  refine List.filter_congr fun entry _ => ?_
  rw [Bool.and_eq_left_iff_imp, Bool.not_eq_true', ← Bool.not_eq_true]
  intro hfront hid
  rw [List.isPrefixOf_iff_prefix] at hfront hid
  exact hother (owner_unique hfront hid)

theorem Holds.deleteUnder_of_ne {other : Nat} (hother : other ≠ id)
    (hholds : table.Holds other rows) : (table.deleteUnder (rowFront id)).Holds other rows :=
  (under_deleteUnder_of_ne hother).trans hholds

/-- Rows that were written for a mod are removed with it. -/
theorem deleteUnder_putRows (table : RowTable α) (id : Nat) (rows : List α) :
    (table.putRows id rows).deleteUnder (rowFront id) = table.deleteUnder (rowFront id) := by
  unfold putRows
  generalize rows.zipIdx (table.nextNumber id) = numbered
  induction numbered generalizing table with
  | nil => rfl
  | cons row rest ih =>
      rw [List.foldl_cons, ih]
      apply RowTable.ext
      rw [entries_deleteUnder, entries_deleteUnder]
      refine Sorted.filter_insert_of_not
        (fun key => !(rowFront id).toList.isPrefixOf key.toList) ?_ row.1
      rw [isPrefixOf_rowKey, decide_eq_true rfl]
      rfl

theorem deleteUnder_deleteUnder (table : RowTable α) (front : String) :
    (table.deleteUnder front).deleteUnder front = table.deleteUnder front := by
  apply RowTable.ext
  rw [entries_deleteUnder, entries_deleteUnder, List.filter_filter]
  simp

end RowTable

/-! ## All tables -/

/-- Whether ten digits suffice for the numbers of rows in each table. -/
def Rows.fits (rows : Rows) : Bool :=
  [rows.references.length, rows.inheritance.length, rows.classes.length, rows.tags.length,
    rows.enumExtensions.length].all (· < 10 ^ 10)

namespace RowTables

variable {tables : RowTables} {id : Nat} {rows : Rows}

/-- Whether certain rows are the entries of a mod in all tables. -/
structure Holds (tables : RowTables) (id : Nat) (rows : Rows) : Prop where
  references : tables.references.Holds id rows.references
  inheritance : tables.inheritance.Holds id rows.inheritance
  classes : tables.classes.Holds id rows.classes
  tags : tables.tags.Holds id rows.tags
  enumExtensions : tables.enumExtensions.Holds id rows.enumExtensions

theorem Holds.rowsOf_eq (hholds : tables.Holds id rows) : tables.rowsOf id = rows := by
  unfold rowsOf
  rw [hholds.references.rowsOf_eq, hholds.inheritance.rowsOf_eq, hholds.classes.rowsOf_eq,
    hholds.tags.rowsOf_eq, hholds.enumExtensions.rowsOf_eq]

theorem holds_empty (id : Nat) : empty.Holds id .empty := ⟨rfl, rfl, rfl, rfl, rfl⟩

theorem holds_purge (tables : RowTables) (id : Nat) : (tables.purge id).Holds id .empty :=
  ⟨RowTable.holds_deleteUnder _ id, RowTable.holds_deleteUnder _ id,
    RowTable.holds_deleteUnder _ id, RowTable.holds_deleteUnder _ id,
    RowTable.holds_deleteUnder _ id⟩

theorem Holds.purge_of_ne {other : Nat} (hother : other ≠ id) (hholds : tables.Holds other rows) :
    (tables.purge id).Holds other rows :=
  ⟨hholds.references.deleteUnder_of_ne hother, hholds.inheritance.deleteUnder_of_ne hother,
    hholds.classes.deleteUnder_of_ne hother, hholds.tags.deleteUnder_of_ne hother,
    hholds.enumExtensions.deleteUnder_of_ne hother⟩

theorem Holds.putRows_of_ne {other : Nat} (hother : other ≠ id) (hholds : tables.Holds other rows)
    (more : Rows) : (tables.putRows id more).Holds other rows :=
  ⟨hholds.references.putRows_of_ne hother _, hholds.inheritance.putRows_of_ne hother _,
    hholds.classes.putRows_of_ne hother _, hholds.tags.putRows_of_ne hother _,
    hholds.enumExtensions.putRows_of_ne hother _⟩

theorem Holds.putRows (hholds : tables.Holds id rows) {more : Rows}
    (hfits : (rows.append more).fits) : (tables.putRows id more).Holds id (rows.append more) := by
  simp only [Rows.fits, Rows.append, List.length_append, List.all_cons, List.all_nil,
    Bool.and_true, Bool.and_eq_true, decide_eq_true_eq] at hfits
  obtain ⟨hreferences, hinheritance, hclasses, htags, hextensions⟩ := hfits
  exact ⟨hholds.references.putRows (Nat.le_of_lt hreferences),
    hholds.inheritance.putRows (Nat.le_of_lt hinheritance),
    hholds.classes.putRows (Nat.le_of_lt hclasses), hholds.tags.putRows (Nat.le_of_lt htags),
    hholds.enumExtensions.putRows (Nat.le_of_lt hextensions)⟩

/-- A batch that replaces rows leaves nothing of one before it. -/
theorem track_track (tables : RowTables) (id : Nat) (first : TrackBatch) {batch : TrackBatch}
    (hdeletes : batch.deletesCurrent) :
    (tables.track id first).track id batch = tables.track id batch := by
  have hpurge : (tables.track id first).purge id = tables.purge id := by
    unfold track
    split <;> simp only [purge, RowTables.putRows, RowTable.deleteUnder_putRows,
      RowTable.deleteUnder_deleteUnder]
  unfold track at hpurge ⊢
  rw [if_pos hdeletes, if_pos hdeletes, hpurge]

/-! ## Tables of a store -/

/-- Whether tables hold the rows of all mods of a store. -/
def Keep (tables : RowTables) (store : Store) : Prop :=
  ∀ id, tables.Holds id (store.rowsOf id)

def after (tables : RowTables) : RowChange → RowTables
  | .nothing => tables
  | .purge id => tables.purge id
  | .write id batch => tables.track id batch

variable {store : Store}

theorem Holds.track_of_ne {other : Nat} (hother : other ≠ id) (hholds : tables.Holds other rows)
    (batch : TrackBatch) : (tables.track id batch).Holds other rows := by
  unfold track
  split
  · exact (hholds.purge_of_ne hother).putRows_of_ne hother batch.rows
  · exact hholds.putRows_of_ne hother batch.rows

theorem Keep.holds_track {batch : TrackBatch} (hkeep : tables.Keep store)
    (hfits : (store.rowsWith id batch).fits) :
    (tables.track id batch).Holds id (store.rowsWith id batch) := by
  unfold Store.rowsWith at hfits ⊢
  unfold track
  split
  · next hdeletes =>
      rw [if_pos hdeletes] at hfits
      exact (holds_purge tables id).putRows hfits
  · next hdeletes =>
      rw [if_neg hdeletes] at hfits
      exact (hkeep id).putRows hfits

theorem Keep.holds_after (hkeep : tables.Keep store) (change : RowChange) (id : Nat)
    (hfits : (store.rowsOfAfter id change).fits) :
    (tables.after change).Holds id (store.rowsOfAfter id change) := by
  cases change with
  | nothing => exact hkeep id
  | purge other =>
      dsimp only [Store.rowsOfAfter]
      split
      · next hid =>
          subst hid
          exact holds_purge tables id
      · next hid => exact (hkeep id).purge_of_ne hid
  | write other batch =>
      dsimp only [Store.rowsOfAfter] at hfits ⊢
      dsimp only [after]
      split
      · next hid =>
          subst hid
          rw [if_pos rfl] at hfits
          exact hkeep.holds_track hfits
      · next hid => exact (hkeep id).track_of_ne hid batch

end RowTables

namespace Store

/-- Whether ten digits suffice for the numbers of all rows. -/
def rowsFit (store : Store) : Bool := store.rows.values.all Rows.fits

/-- Whether this is so after changes, one after another. -/
def staysFit (store : Store) : List Change → Bool
  | [] => true
  | change :: rest => (store.after change).rowsFit && (store.after change).staysFit rest

/-- What becomes of tables when changes are made, one after another. -/
def tablesAfter (store : Store) (tables : RowTables) : List Change → RowTables
  | [] => tables
  | change :: rest =>
      (store.after change).tablesAfter (tables.after (store.rowChange change)) rest

variable {store : Store} {tables : RowTables}

theorem fits_rowsOf (hfits : store.rowsFit) (id : Nat) : (store.rowsOf id).fits := by
  unfold rowsOf
  cases hrows : store.rows.get? id with
  | none => decide
  | some rows =>
      have hmem : rows ∈ store.rows.values := List.mem_map.mpr ⟨_, Table.mem_of_lookup hrows, rfl⟩
      exact List.all_eq_true.mp hfits rows hmem

/-- Tables that hold the rows of a store hold them after each change. -/
theorem keep_after (hstore : store.Consistent) (hkeep : tables.Keep store) (change : Change)
    (hfits : (store.after change).rowsFit) :
    (tables.after (store.rowChange change)).Keep (store.after change) := by
  intro id
  have hid := fits_rowsOf hfits id
  rw [rowsOf_after hstore] at hid ⊢
  exact hkeep.holds_after _ id hid

/-- Tables hold the rows of a store in every history in which ten digits suffice. -/
theorem keep_tablesAfter (hstore : store.Consistent) (hkeep : tables.Keep store)
    {changes : List Change} (hfits : store.staysFit changes) :
    (store.tablesAfter tables changes).Keep (store.afterAll changes) := by
  induction changes generalizing store tables with
  | nil => exact hkeep
  | cons change rest ih =>
      obtain ⟨hfirst, hrest⟩ := Bool.and_eq_true_iff.mp hfits
      exact ih ((hstore.effect change).consistent hstore) (keep_after hstore hkeep change hfirst)
        hrest

end Store

end ModCatalog
