import ModCatalog.Aggregate
import ModCatalog.Proofs.Store.RowTables

/-!
# Writing a batch

A batch changes the rows and the record of one mod and the owner of one content, and nothing else.
A batch that replaces the rows of its mod leaves the same store when it is written once more.
-/

namespace ModCatalog

section AddMissing

variable {α : Type} [BEq α] [LawfulBEq α]

/-- What is missing follows the list, each once. -/
theorem addMissing_eq (list others : List α) :
    addMissing list others = list ++ (others.filter fun x => !list.contains x).eraseDups := by
  unfold addMissing
  induction others generalizing list with
  | nil => simp
  | cons x rest ih =>
      rw [List.foldl_cons, ih]
      by_cases hx : list.contains x
      · rw [if_pos hx, List.filter_cons_of_neg (by simpa using hx)]
      · have hnew : (rest.filter fun y => !(list ++ [x]).contains y) =
            (rest.filter fun y => !list.contains y).filter fun y => !y == x := by
          rw [List.filter_filter]
          refine List.filter_congr fun y _ => ?_
          rw [Bool.eq_iff_iff]
          simp [and_comm]
        rw [if_neg hx, List.filter_cons_of_pos (by simpa using hx), List.eraseDups_cons, hnew,
          List.append_assoc]
        rfl

theorem addMissing_twice (list others : List α) :
    addMissing (addMissing list others) others = addMissing list others := by
  have hnone : (others.filter fun x => !(addMissing list others).contains x) = [] := by
    refine List.filter_eq_nil_iff.mpr fun x hx => ?_
    have hmem : x ∈ addMissing list others := mem_addMissing.mpr (Or.inr hx)
    simpa using hmem
  rw [addMissing_eq (addMissing list others), hnone]
  exact List.append_nil _

end AddMissing

/-- The same batch at another time. -/
def TrackBatch.dated (batch : TrackBatch) (time : Nat) : TrackBatch :=
  { batch with indexedAt := time }

@[simp] theorem TrackBatch.dated_rows (batch : TrackBatch) (time : Nat) :
    (batch.dated time).rows = batch.rows := rfl

@[simp] theorem TrackBatch.dated_knownHash (batch : TrackBatch) (time : Nat) :
    (batch.dated time).knownHash = batch.knownHash := rfl

/-- The names that a batch tells of its mod. -/
def TrackBatch.modIds (batch : TrackBatch) : List String :=
  (batch.metadata.map ArtifactSummary.modIds).getD []

namespace Transaction

variable {store after : Store} {id : Nat} {record : ModRecord} {batch : TrackBatch}

theorem described_links (record : ModRecord) (batch : TrackBatch) :
    (described record batch).links = record.links := by
  unfold described
  split <;> rfl

theorem described_coordinate (record : ModRecord) (batch : TrackBatch) :
    (described record batch).coordinate = record.coordinate := by
  unfold described
  split <;> rfl

theorem described_modIds (record : ModRecord) (batch : TrackBatch) :
    (described record batch).modIds = addMissing record.modIds batch.modIds := by
  unfold described TrackBatch.modIds
  cases batch.metadata <;> rfl

/-- Of two batches that differ in their time, the later one counts. -/
theorem described_dated (record : ModRecord) (batch : TrackBatch) (earlier : Nat) :
    described (described record (batch.dated earlier)) batch = described record batch := by
  unfold described TrackBatch.dated
  cases batch.metadata with
  | none => simp [addMissing_twice]
  | some summary => simp [addMissing_twice]

theorem run_putHash_eq_error {hash : String} {fault : Fault} :
    (putHash hash id).run store = .error fault ↔ Store.checkWrite hash 0 = .error fault := by
  unfold putHash check
  rw [run_bind_eq_error, run_liftM_eq_error]
  constructor
  · rintro (hbad | ⟨_, _, _, hmodify⟩)
    · exact hbad
    · cases hmodify
  · exact Or.inl

theorem run_forM_putHash_eq_error {hashes : List String} {fault : Fault}
    (hrun : (hashes.forM fun hash => putHash hash id).run store = .error fault) :
    ∃ hash ∈ hashes, Store.checkWrite hash 0 = .error fault := by
  rw [List.forM_eq_forM] at hrun
  induction hashes generalizing store with
  | nil => cases hrun
  | cons hash rest ih =>
      rw [List.forM_cons, run_bind_eq_error, run_putHash_eq_error] at hrun
      rcases hrun with hbad | ⟨_, _, _, hrest⟩
      · exact ⟨hash, List.mem_cons_self, hbad⟩
      · obtain ⟨other, hmem, hbad⟩ := ih hrest
        exact ⟨other, List.mem_cons_of_mem _ hmem, hbad⟩

end Transaction

namespace Store

variable {store : Store} {id : Nat} {batch : TrackBatch} {record : ModRecord}

/-! ## Batches that are refused -/

/-- Whether a batch can be written: its mod is there, and the key of its content is fit. -/
def Accepts (store : Store) (id : Nat) (batch : TrackBatch) : Prop :=
  (store.mod? id).isSome ∧ ∀ hash ∈ batch.knownHash, checkWrite hash 0 = .ok ()

theorem exists_fault_of_not_accepts (hrefused : ¬ store.Accepts id batch) :
    ∃ fault, (Transaction.track id batch).commit store = (.error fault, store) := by
  cases hrun : (Transaction.track id batch).run store with
  | error fault => exact ⟨fault, Transaction.commit_eq_error hrun⟩
  | ok pair =>
      obtain ⟨record, hrecord, hkeys, _⟩ := Transaction.track_spec hrun
      exact absurd ⟨by rw [hrecord]; rfl, hkeys⟩ hrefused

/-- A batch is refused for one of two reasons. -/
theorem track_fault {fault : Fault}
    (hrun : (Transaction.track id batch).run store = .error fault) :
    store.mod? id = none ∧ fault = .storage (.unknownMod id) ∨
      ∃ hash, batch.knownHash = some hash ∧ checkWrite hash 0 = .error fault := by
  rcases Transaction.run_bind_eq_error.mp hrun with hmissing | ⟨record, _, _, hrest⟩
  · obtain ⟨hnone, hfault⟩ := Transaction.run_requireMod_eq_error.mp hmissing
    exact Or.inl ⟨hnone, hfault.symm⟩
  · rcases Transaction.run_bind_eq_error.mp hrest with hmodify | ⟨_, between, _, hrest⟩
    · cases hmodify
    · rcases Transaction.run_bind_eq_error.mp hrest with hput | ⟨_, _, _, hwrite⟩
      · obtain ⟨hash, hmem, hbad⟩ := Transaction.run_forM_putHash_eq_error hput
        exact Or.inr ⟨hash, Option.mem_toList.mp hmem, hbad⟩
      · cases hwrite

/-! ## Batches that are written -/

def withBatch (store : Store) (record : ModRecord) (batch : TrackBatch) : Store :=
  { store.putRows record.id (store.rowsWith record.id batch) with
    hashes := batch.knownHash.toList.foldl (fun table hash => table.put hash record.id) store.hashes
    mods := store.mods.put record.id (Transaction.described record batch) }

theorem Accepts.exists_commit (hstore : store.Consistent) (haccepts : store.Accepts id batch) :
    ∃ record, store.mod? id = some record ∧ record.id = id ∧
      (Transaction.track id batch).commit store = (.ok (), store.withBatch record batch) := by
  obtain ⟨hsome, hkeys⟩ := haccepts
  obtain ⟨record, hrecord⟩ := Option.isSome_iff_exists.mp hsome
  obtain rfl : record.id = id := hstore.keyed hrecord
  refine ⟨record, hrecord, rfl, Transaction.commit_eq_ok.mpr ?_⟩
  exact Transaction.run_track_eq_ok.mpr ⟨record, hrecord, hkeys, rfl⟩

theorem accepts_of_commit (h : ((Transaction.track id batch).commit store).1 = .ok ()) :
    store.Accepts id batch := by
  by_contra hrefused
  obtain ⟨fault, hcommit⟩ := exists_fault_of_not_accepts hrefused
  rw [hcommit] at h
  cases h

theorem mod?_withBatch (store : Store) (record : ModRecord) (batch : TrackBatch) (other : Nat) :
    (store.withBatch record batch).mod? other =
      if other = record.id then some (Transaction.described record batch) else store.mod? other :=
  Table.get?_put store.mods record.id other _

/-- Only the content that the batch names gets another owner. -/
theorem findByHash_withBatch (hkeys : ∀ hash ∈ batch.knownHash, checkWrite hash 0 = .ok ())
    (record : ModRecord) (hash : String) :
    (store.withBatch record batch).findByHash hash =
      if batch.knownHash = some hash then .ok (some record.id) else store.findByHash hash := by
  have hget : (store.withBatch record batch).hashes.get? hash =
      if batch.knownHash = some hash then some record.id else store.hashes.get? hash := by
    refine (Table.get?_foldl_put _ _ _ _).trans ?_
    simp only [Option.mem_toList]
  unfold findByHash
  rw [hget]
  split
  · next hknown =>
      rw [checkRead_of_checkWrite (hkeys hash hknown)]
      rfl
  · rfl

/-! ## One batch after another -/

theorem rowsWith_of_deletes (store : Store) (id : Nat) (hdeletes : batch.deletesCurrent) :
    store.rowsWith id batch = batch.rows := by
  unfold rowsWith
  rw [if_pos hdeletes, Rows.empty_append]

theorem rows_putRows_twice (store after : Store) (id : Nat) (rows : Rows)
    (hafter : after.rows = (store.putRows id rows).rows) :
    (after.putRows id rows).rows = (store.putRows id rows).rows := by
  unfold putRows at hafter ⊢
  dsimp only at hafter ⊢
  rw [hafter]
  split
  · exact Table.erase_erase store.rows id
  · exact Table.put_put store.rows id rows rows

/-- A batch that replaces rows leaves the same store whether or not it was written before. -/
theorem withBatch_withBatch (store : Store) (record : ModRecord) (hdeletes : batch.deletesCurrent)
    (earlier : Nat) :
    (store.withBatch record (batch.dated earlier)).withBatch
        (Transaction.described record (batch.dated earlier)) batch =
      store.withBatch record batch := by
  have hfirst : (batch.dated earlier).deletesCurrent := hdeletes
  have hhashes (table : Table String Nat) (id : Nat) :
      batch.knownHash.toList.foldl (fun table hash => table.put hash id)
          (batch.knownHash.toList.foldl (fun table hash => table.put hash id) table) =
        batch.knownHash.toList.foldl (fun table hash => table.put hash id) table := by
    cases batch.knownHash with
    | none => rfl
    | some hash => exact Table.put_put table hash id id
  unfold withBatch
  simp only [Transaction.described_id, Transaction.described_dated, Table.put_put, hhashes,
    rowsWith_of_deletes _ _ hdeletes, rowsWith_of_deletes _ _ hfirst, TrackBatch.dated_rows,
    TrackBatch.dated_knownHash]
  exact congrArg (Store.mk _ _ _ _ _ _) (rows_putRows_twice store _ record.id batch.rows rfl)

theorem after_track_of_refused (hrefused : ¬ store.Accepts id batch) :
    store.after (.track id batch) = store := by
  obtain ⟨fault, hcommit⟩ := exists_fault_of_not_accepts hrefused
  exact congrArg Prod.snd hcommit

theorem rowChange_track_of_refused (hrefused : ¬ store.Accepts id batch) :
    store.rowChange (.track id batch) = .nothing := by
  obtain ⟨fault, hcommit⟩ := exists_fault_of_not_accepts hrefused
  dsimp only [rowChange]
  rw [hcommit]

theorem Accepts.rowChange_track (hstore : store.Consistent) (haccepts : store.Accepts id batch) :
    store.rowChange (.track id batch) = .write id batch := by
  obtain ⟨record, _, _, hcommit⟩ := haccepts.exists_commit hstore
  dsimp only [rowChange]
  rw [hcommit]

theorem Accepts.exists_after (hstore : store.Consistent) (haccepts : store.Accepts id batch) :
    ∃ record, store.mod? id = some record ∧ record.id = id ∧
      store.after (.track id batch) = store.withBatch record batch := by
  obtain ⟨record, hrecord, hid, hcommit⟩ := haccepts.exists_commit hstore
  exact ⟨record, hrecord, hid, congrArg Prod.snd hcommit⟩

theorem Accepts.accepts_after (hstore : store.Consistent) (haccepts : store.Accepts id batch) :
    (store.after (.track id batch)).Accepts id batch := by
  obtain ⟨record, _, hid, hafter⟩ := haccepts.exists_after hstore
  refine ⟨?_, haccepts.2⟩
  rw [hafter, mod?_withBatch, if_pos hid.symm]
  rfl

theorem accepts_dated {time : Nat} :
    store.Accepts id (batch.dated time) ↔ store.Accepts id batch := Iff.rfl

/-- Rows that are replaced twice by the same ones are as if they were replaced once, the second
time. -/
theorem after_track_twice (hstore : store.Consistent) (id : Nat) (hdeletes : batch.deletesCurrent)
    (earlier : Nat) :
    (store.after (.track id (batch.dated earlier))).after (.track id batch) =
      store.after (.track id batch) := by
  by_cases haccepts : store.Accepts id batch
  · have hfirst : store.Accepts id (batch.dated earlier) := accepts_dated.mpr haccepts
    have hbetween := (hstore.effect (.track id (batch.dated earlier))).consistent hstore
    obtain ⟨record, hrecord, rfl, hafter⟩ := haccepts.exists_after hstore
    obtain ⟨same, hsame, _, hbefore⟩ := hfirst.exists_after hstore
    obtain ⟨noted, hnoted, _, hlast⟩ :=
      (accepts_dated.mp (hfirst.accepts_after hstore)).exists_after hbetween
    obtain rfl : record = same := Option.some.inj (hrecord.symm.trans hsame)
    have hdescribed : Transaction.described record (batch.dated earlier) = noted := by
      rw [hbefore, mod?_withBatch, if_pos rfl] at hnoted
      exact Option.some.inj hnoted
    -- Both batches go to the record that the first one left.
    rw [hlast, hbefore, ← hdescribed, hafter]
    exact store.withBatch_withBatch record hdeletes earlier
  · rw [after_track_of_refused (mt accepts_dated.mp haccepts)]

theorem tablesAfter_track_twice (hstore : store.Consistent) (tables : RowTables) (id : Nat)
    (hdeletes : batch.deletesCurrent) (earlier : Nat) :
    store.tablesAfter tables [.track id (batch.dated earlier), .track id batch] =
      store.tablesAfter tables [.track id batch] := by
  dsimp only [tablesAfter]
  by_cases haccepts : store.Accepts id batch
  · have hfirst : store.Accepts id (batch.dated earlier) := accepts_dated.mpr haccepts
    have hagain := accepts_dated.mp (hfirst.accepts_after hstore)
    have hbetween := (hstore.effect (.track id (batch.dated earlier))).consistent hstore
    rw [hagain.rowChange_track hbetween, hfirst.rowChange_track hstore,
      haccepts.rowChange_track hstore]
    exact tables.track_track id _ hdeletes
  · have hrefused : ¬ store.Accepts id (batch.dated earlier) := mt accepts_dated.mp haccepts
    rw [after_track_of_refused hrefused, rowChange_track_of_refused hrefused]
    rfl

theorem tablesAfter_append (store : Store) (tables : RowTables) (done more : List Change) :
    store.tablesAfter tables (done ++ more) =
      (store.afterAll done).tablesAfter (store.tablesAfter tables done) more := by
  induction done generalizing store tables with
  | nil => rfl
  | cons change rest ih => exact ih (store.after change) _

/-! ## What a batch changes -/

/-- What changes with a batch for a mod, in a store and in tables with its rows: the rows and the
record of the mod, and the owner of the content that the batch names. -/
structure Tracked (store : Store) (tables : RowTables) (id : Nat) (batch : TrackBatch)
    (after : Store) (written : RowTables) : Prop where
  rows : written.rowsOf id =
    if batch.deletesCurrent then batch.rows else (tables.rowsOf id).append batch.rows
  other_rows {other : Nat} : other ≠ id → written.rowsOf other = tables.rowsOf other
  other_mods {other : Nat} : other ≠ id → after.mod? other = store.mod? other
  listings (listing : Listing) : after.findByListing listing = store.findByListing listing
  coordinates (coordinate : String) :
    after.findByCoordinate coordinate = store.findByCoordinate coordinate
  seenFiles (file : FileKey) : after.seenFileOwner file = store.seenFileOwner file
  contents (hash : String) : after.findByHash hash =
    if batch.knownHash = some hash then .ok (some id) else store.findByHash hash
  record : ∃ old new, store.mod? id = some old ∧ after.mod? id = some new ∧
    new.links = old.links ∧ new.coordinate = old.coordinate ∧
    new.modIds = old.modIds ++
      (batch.modIds.filter fun name => !old.modIds.contains name).eraseDups

theorem Accepts.tracked (hstore : store.Consistent) (haccepts : store.Accepts id batch)
    {tables written : RowTables} (htables : ∀ other, tables.rowsOf other = store.rowsOf other)
    (hwritten : ∀ other, written.rowsOf other = (store.after (.track id batch)).rowsOf other) :
    store.Tracked tables id batch (store.after (.track id batch)) written := by
  have hrows (other : Nat) : written.rowsOf other =
      if other = id then store.rowsWith id batch else store.rowsOf other := by
    rw [hwritten, rowsOf_after hstore, haccepts.rowChange_track hstore]
    rfl
  obtain ⟨record, hrecord, rfl, hafter⟩ := haccepts.exists_after hstore
  have hnoted : (store.after (.track record.id batch)).mod? record.id =
      some (Transaction.described record batch) := by
    rw [hafter, mod?_withBatch, if_pos rfl]
  constructor
  · rw [hrows, if_pos rfl, htables]
    unfold rowsWith
    split
    · exact Rows.empty_append batch.rows
    · rfl
  · intro other hother
    rw [hrows, if_neg hother, htables]
  · intro other hother
    rw [hafter, mod?_withBatch, if_neg hother]
  · intro listing
    rw [hafter]
    rfl
  · intro coordinate
    rw [hafter]
    rfl
  · intro file
    rw [hafter]
    rfl
  · intro hash
    rw [hafter]
    exact findByHash_withBatch haccepts.2 record hash
  · refine ⟨record, _, hrecord, hnoted, Transaction.described_links record batch,
      Transaction.described_coordinate record batch, ?_⟩
    rw [Transaction.described_modIds, addMissing_eq]

theorem staysFit_append (store : Store) (done more : List Change) :
    store.staysFit (done ++ more) =
      (store.staysFit done && (store.afterAll done).staysFit more) := by
  induction done generalizing store with
  | nil => rfl
  | cons change rest ih =>
      have hrest := ih (store.after change)
      dsimp only [List.cons_append, staysFit]
      rw [hrest, Bool.and_assoc]
      rfl

/-- What a batch does to a store that any history leads to, and to the tables of its rows, where
rows are found by their keys. -/
theorem track_writes_batch (changes : List Change) (id : Nat) (batch : TrackBatch)
    (hfits : empty.staysFit (changes ++ [.track id batch])) :
    let store := empty.afterAll changes
    let tables := empty.tablesAfter .empty changes
    let attempt := (Transaction.track id batch).commit store
    let written := empty.tablesAfter .empty (changes ++ [.track id batch])
    (∀ other, tables.rowsOf other = store.rowsOf other ∧
      written.rowsOf other = attempt.2.rowsOf other) ∧
    (attempt.1 = .ok () → store.Tracked tables id batch attempt.2 written) ∧
    (∀ fault, attempt.1 = .error fault →
      (store.mod? id = none ∧ fault = .storage (.unknownMod id) ∨
        ∃ hash, batch.knownHash = some hash ∧ checkWrite hash 0 = .error fault) ∧
      attempt.2 = store ∧ written = tables) ∧
    ∀ (aggregate : Aggregate) (knownHash : Option String) (metadata : Option ArtifactSummary)
      (earlier later : Nat),
      let change := fun now => Change.track id (aggregate.toBatch knownHash metadata now)
      empty.afterAll (changes ++ [change earlier, change later]) =
        empty.afterAll (changes ++ [change later]) ∧
      empty.tablesAfter .empty (changes ++ [change earlier, change later]) =
        empty.tablesAfter .empty (changes ++ [change later]) := by
  intro store tables attempt written
  have hstore : store.Consistent := Consistent.empty.afterAll changes
  have hafter : attempt.2 = store.after (.track id batch) := rfl
  -- The tables hold the rows before and after, as ten digits suffice in all states up to there.
  have hboth := hfits
  rw [staysFit_append] at hboth
  have htables (other : Nat) : tables.rowsOf other = store.rowsOf other :=
    (keep_tablesAfter Consistent.empty RowTables.holds_empty
      (Bool.and_eq_true_iff.mp hboth).1 other).rowsOf_eq
  have hwritten (other : Nat) : written.rowsOf other = attempt.2.rowsOf other := by
    rw [hafter, ← afterAll_concat]
    exact (keep_tablesAfter Consistent.empty RowTables.holds_empty hfits other).rowsOf_eq
  refine ⟨fun other => ⟨htables other, hwritten other⟩, ?_, ?_, ?_⟩
  · intro hok
    exact (accepts_of_commit hok).tracked hstore htables hwritten
  · intro fault hfault
    have hrun := Transaction.commit_fst_eq_error.mp hfault
    refine ⟨track_fault hrun, ?_, ?_⟩
    · exact congrArg Prod.snd (Transaction.commit_eq_error hrun)
    · have hrefused : ¬ store.Accepts id batch := by
        intro haccepts
        obtain ⟨_, _, _, hcommit⟩ := haccepts.exists_commit hstore
        cases (congrArg Prod.fst hcommit).symm.trans hfault
      refine (tablesAfter_append empty .empty changes [.track id batch]).trans ?_
      change tables.after (store.rowChange (.track id batch)) = tables
      rw [rowChange_track_of_refused hrefused]
      rfl
  · intro aggregate knownHash metadata earlier later change
    have hdeletes : (aggregate.toBatch knownHash metadata later).deletesCurrent := rfl
    constructor
    · rw [afterAll_append, afterAll_append]
      exact after_track_twice hstore id hdeletes earlier
    · rw [tablesAfter_append, tablesAfter_append]
      exact tablesAfter_track_twice hstore tables id hdeletes earlier

/-- A batch with one class, for content "h". -/
def classBatch (deletesCurrent : Bool) (name : String) : TrackBatch where
  deletesCurrent := deletesCurrent
  rows := { Rows.empty with classes := [⟨name, 1, none, [], [], [], []⟩] }
  knownHash := some "h"
  metadata := none
  indexedAt := 0

/-- Mods 1 and 2 with one class each. -/
def classHistory : List Change :=
  [.createMod ⟨"", "", none, []⟩, .createMod ⟨"", "", none, []⟩, .track 1 (classBatch true "A"),
    .track 2 (classBatch true "C")]

/-- A class that is written for mod 1 comes after the one it has, and mod 2 keeps its own. -/
theorem track_writes_class :
    let written := empty.tablesAfter .empty (classHistory ++ [.track 1 (classBatch false "B")])
    (written.rowsOf 1).classes.map ClassRow.name = ["A", "B"] ∧
      (written.rowsOf 2).classes.map ClassRow.name = ["C"] ∧
      ((empty.afterAll classHistory).after (.track 1 (classBatch false "B"))).findByHash "h" =
        .ok (some 1) := by
  have hfits : empty.staysFit (classHistory ++ [.track 1 (classBatch false "B")]) := by
    decide +kernel
  have hok : ((Transaction.track 1 (classBatch false "B")).commit
      (empty.afterAll classHistory)).1 = .ok () := by decide +kernel
  have hbefore : ((empty.afterAll classHistory).rowsOf 1).classes.map ClassRow.name = ["A"] ∧
      ((empty.afterAll classHistory).rowsOf 2).classes.map ClassRow.name = ["C"] := by
    decide +kernel
  obtain ⟨hread, hwrites, _⟩ := track_writes_batch classHistory 1 (classBatch false "B") hfits
  have htracked := hwrites hok
  refine ⟨?_, ?_, htracked.contents "h"⟩
  · rw [htracked.rows, (hread 1).1]
    exact congrArg (· ++ ["B"]) hbefore.1
  · rw [htracked.other_rows (by decide), (hread 2).1]
    exact hbefore.2

end Store

end ModCatalog
