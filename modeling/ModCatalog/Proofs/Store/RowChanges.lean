import Mathlib.Data.List.Induction
import Mathlib.Data.List.Nodup
import ModCatalog.Proofs.Store.History

/-!
# Changes of rows

Of all changes only three bear on rows: a mod that goes takes its rows along, a batch writes rows of
one mod, and a purge removes them.  What a change does to the rows is read off the store before.
-/

namespace ModCatalog

/-- What happens to the rows of one mod. -/
inductive RowChange
  | nothing
  | purge (id : Nat)
  | write (id : Nat) (batch : TrackBatch)

namespace Store

/-- A mod that goes takes its rows along. -/
def removal (store : Store) (id : Nat) : RowChange :=
  if (store.mod? id).isSome then .purge id else .nothing

/-- What a change does to rows. -/
def rowChange (store : Store) : Change → RowChange
  | .attachPlatform id link =>
      match ((Transaction.attachPlatform id link).commit store).1 with
      | .ok absorbed => absorbed.elim .nothing store.removal
      | .error _ => .nothing
  | .deleteMod id => store.removal id
  | .track id batch =>
      match ((Transaction.track id batch).commit store).1 with
      | .ok _ => .write id batch
      | .error _ => .nothing
  | .purgeRows id => .purge id
  | _ => .nothing

/-- The rows of a mod once a batch is written. -/
def rowsWith (store : Store) (id : Nat) (batch : TrackBatch) : Rows :=
  (if batch.deletesCurrent then Rows.empty else store.rowsOf id).append batch.rows

def rowsAfter (store : Store) : RowChange → Table Nat Rows
  | .nothing => store.rows
  | .purge id => store.rows.erase id
  | .write id batch => (store.putRows id (store.rowsWith id batch)).rows

variable {store after : Store}

theorem rows_deleteMod_eq (store : Store) (id : Nat) :
    (store.deleteMod id).rows = store.rowsAfter (store.removal id) := by
  unfold deleteMod removal
  cases store.mod? id <;> rfl

theorem removal_of_mods {other : Store} (hmods : other.mods = store.mods) (id : Nat) :
    other.removal id = store.removal id := by
  unfold removal mod?
  rw [hmods]

theorem rowsAfter_removal_of_rows {other : Store} (hrows : other.rows = store.rows) (id : Nat) :
    other.rowsAfter (store.removal id) = store.rowsAfter (store.removal id) := by
  unfold removal
  split
  · exact congrArg (Table.erase · id) hrows
  · exact hrows

theorem rows_attachPlatform {id : Nat} {link : PlatformLink} {absorbed : Option Nat}
    (hkeyed : ∀ {id record}, store.mod? id = some record → record.id = id)
    (h : (Transaction.attachPlatform id link).run store = .ok (absorbed, after)) :
    after.rows = store.rowsAfter (absorbed.elim .nothing store.removal) := by
  simp only [Transaction.attachPlatform, Transaction.run_bind_eq_ok,
    Transaction.run_requireMod_eq_ok, Transaction.run_get_eq_ok] at h
  obtain ⟨target, _, ⟨_, rfl⟩, _, _, ⟨rfl, rfl⟩, h⟩ := h
  generalize (store.findByListing link.listing).filter (· ≠ id) = holder at h
  cases hold : holder.bind store.mod? with
  | none =>
      simp only [hold, Transaction.run_bind_eq_ok, Transaction.run_pure_eq_ok,
        Transaction.run_setLink_eq_ok, Transaction.run_writeMod_eq_ok] at h
      obtain ⟨_, _, ⟨rfl, rfl⟩, _, _, ⟨_, rfl, rfl⟩, _, _, rfl, rfl, rfl⟩ := h
      cases holder with
      | none => rfl
      | some old =>
          have hnone : store.mod? old = none := hold
          simp [hnone, removal, rowsAfter]
  | some old =>
      simp only [hold, Transaction.run_bind_eq_ok, Transaction.run_pure_eq_ok,
        Transaction.run_setLink_eq_ok, Transaction.run_writeMod_eq_ok] at h
      obtain ⟨merged, between, habsorb, _, _, ⟨_, rfl, rfl⟩, _, _, rfl, rfl, rfl⟩ := h
      obtain ⟨holder, rfl, hrecord⟩ := Option.bind_eq_some_iff.mp hold
      obtain ⟨handed, rfl, _, hmods, hrows, _⟩ := Transaction.absorb_spec habsorb
      obtain rfl := hkeyed hrecord
      have hmoved : (handed.moveFiles old.id target.id).mods = store.mods := hmods
      refine (rows_deleteMod_eq (handed.moveFiles old.id target.id) old.id).trans ?_
      rw [removal_of_mods hmoved]
      exact rowsAfter_removal_of_rows hrows old.id

theorem rows_commit_of_kept {α : Type} {change : Transaction α}
    (hkept : ∀ {value after}, change.run store = .ok (value, after) → after.rows = store.rows) :
    (change.commit store).2.rows = store.rows := by
  cases hrun : change.run store with
  | ok pair =>
      rw [Transaction.commit_eq_ok.mpr hrun]
      exact hkept hrun
  | error fault => rw [Transaction.commit_eq_error hrun]

theorem rows_commit_attachPlatform (hstore : store.Consistent) (id : Nat) (link : PlatformLink) :
    ((Transaction.attachPlatform id link).commit store).2.rows =
      store.rowsAfter (store.rowChange (.attachPlatform id link)) := by
  dsimp only [rowChange]
  cases hrun : (Transaction.attachPlatform id link).run store with
  | ok pair =>
      rw [Transaction.commit_eq_ok.mpr hrun]
      exact rows_attachPlatform hstore.keyed hrun
  | error fault =>
      rw [Transaction.commit_eq_error hrun]
      rfl

theorem rows_commit_track (id : Nat) (batch : TrackBatch) :
    ((Transaction.track id batch).commit store).2.rows =
      store.rowsAfter (store.rowChange (.track id batch)) := by
  dsimp only [rowChange]
  cases hrun : (Transaction.track id batch).run store with
  | ok pair =>
      rw [Transaction.commit_eq_ok.mpr hrun]
      obtain ⟨_, _, _, hafter⟩ := Transaction.track_spec hrun
      rw [hafter]
      rfl
  | error fault =>
      rw [Transaction.commit_eq_error hrun]
      rfl

theorem rows_after (hstore : store.Consistent) (change : Change) :
    (store.after change).rows = store.rowsAfter (store.rowChange change) := by
  cases change with
  | createMod new =>
      have hcommit : ((Transaction.createMod new).commit store).2 = store.after (.createMod new) :=
        commit_eq_after rfl store
      rw [← hcommit]
      exact rows_commit_of_kept fun hrun => by rw [(Transaction.createMod_spec hrun).2]; rfl
  | findOrCreate key new =>
      have hcommit : ((Transaction.findOrCreate key new).commit store).2 =
          store.after (.findOrCreate key new) := commit_eq_after rfl store
      rw [← hcommit]
      refine rows_commit_of_kept fun {answer after} hrun => ?_
      obtain ⟨record, created⟩ := answer
      rcases Transaction.findOrCreate_spec hrun with ⟨_, _, _, _, rfl⟩ | ⟨_, _, _, rfl⟩
      · rfl
      · cases key <;> rfl
  | linkPlatform id link =>
      refine rows_commit_of_kept fun hrun => ?_
      obtain ⟨_, _, rfl⟩ := Transaction.linkPlatform_spec hrun
      rfl
  | linkCoordinate id coordinate =>
      refine rows_commit_of_kept fun hrun => ?_
      obtain ⟨_, _, rfl⟩ := Transaction.linkCoordinate_spec hrun
      rfl
  | attachPlatform id link =>
      have hcommit : ((Transaction.attachPlatform id link).commit store).2 =
          store.after (.attachPlatform id link) := commit_eq_after rfl store
      rw [← hcommit]
      exact rows_commit_attachPlatform hstore id link
  | deleteMod id => exact rows_deleteMod_eq store id
  | markFileSeen link id =>
      refine rows_commit_of_kept fun hrun => ?_
      obtain ⟨_, rfl⟩ := Transaction.run_putFileOwner_eq_ok.mp hrun
      rfl
  | track id batch => exact rows_commit_track id batch
  | purgeRows id => rfl

/-! ## The rows of one mod -/

def rowsOfAfter (store : Store) (id : Nat) : RowChange → Rows
  | .nothing => store.rowsOf id
  | .purge other => if id = other then .empty else store.rowsOf id
  | .write other batch => if id = other then store.rowsWith other batch else store.rowsOf id

theorem rowsOf_of_rows {change : RowChange} (hrows : after.rows = store.rowsAfter change)
    (id : Nat) : after.rowsOf id = store.rowsOfAfter id change := by
  have hafter : after.rowsOf id = ((store.rowsAfter change).get? id).getD .empty := by
    rw [← hrows]
    rfl
  rw [hafter]
  cases change with
  | nothing => rfl
  | purge other =>
      dsimp only [rowsAfter, rowsOfAfter]
      rw [Table.get?_erase]
      split <;> rfl
  | write other batch =>
      dsimp only [rowsAfter, rowsOfAfter]
      rw [get?_rows_putRows]
      split
      · split
        · next hempty => exact (Rows.isEmpty_iff.mp hempty).symm
        · rfl
      · rfl

theorem rowsOf_after (hstore : store.Consistent) (change : Change) (id : Nat) :
    (store.after change).rowsOf id = store.rowsOfAfter id (store.rowChange change) :=
  rowsOf_of_rows (rows_after hstore change) id

theorem nodup_keys_rowsAfter (hkeys : store.rows.keys.Nodup) (change : RowChange) :
    (store.rowsAfter change).keys.Nodup := by
  have herase : ∀ id, (store.rows.erase id).keys.Nodup := fun id =>
    hkeys.sublist (List.filter_sublist.map Prod.fst)
  cases change with
  | nothing => exact hkeys
  | purge id => exact herase id
  | write id batch =>
      unfold rowsAfter putRows
      dsimp only
      split
      · exact herase id
      · refine (congrArg List.Nodup (Table.keys_write id _ store.rows.entries)).mpr ?_
        split
        · exact hkeys
        · next hnew =>
            exact hkeys.append (List.nodup_singleton id) (List.disjoint_singleton.mpr hnew)

/-- Every mod has its rows in one place. -/
theorem Reachable.nodup_keys_rows (hreachable : store.Reachable) : store.rows.keys.Nodup := by
  obtain ⟨changes, rfl⟩ := hreachable
  induction changes using List.reverseRecOn with
  | nil => exact List.nodup_nil
  | append_singleton done change ih =>
      rw [afterAll_concat, rows_after (Consistent.empty.afterAll done)]
      exact nodup_keys_rowsAfter ih _

theorem Reachable.nodup_idsWithRows (hreachable : store.Reachable) : store.idsWithRows.Nodup := by
  unfold idsWithRows
  rw [(List.mergeSort_perm _ _).nodup_iff]
  exact hreachable.nodup_keys_rows.sublist (List.filter_sublist.map Prod.fst)

theorem mem_idsWithRows_of_rowsOf {id : Nat} (hrows : store.rowsOf id ≠ .empty) :
    id ∈ store.idsWithRows := by
  unfold rowsOf at hrows
  unfold idsWithRows
  rw [List.mem_mergeSort]
  cases hget : store.rows.get? id with
  | none =>
      rw [hget] at hrows
      exact absurd rfl hrows
  | some rows =>
      rw [hget] at hrows
      have hsome : (!rows.isEmpty) = true := by
        rw [Bool.not_eq_true', ← Bool.not_eq_true, Rows.isEmpty_iff]
        exact hrows
      refine List.mem_map.mpr ⟨(id, rows), List.mem_filter.mpr ⟨?_, hsome⟩, rfl⟩
      exact Table.mem_of_lookup hget

/-- Which mods have rows can be read off the rows. -/
theorem Reachable.mem_idsWithRows (hreachable : store.Reachable) {id : Nat} :
    id ∈ store.idsWithRows ↔ store.rowsOf id ≠ .empty := by
  refine ⟨?_, mem_idsWithRows_of_rowsOf⟩
  intro hid
  unfold idsWithRows at hid
  rw [List.mem_mergeSort] at hid
  obtain ⟨⟨owner, rows⟩, hentry, rfl⟩ := List.mem_map.mp hid
  obtain ⟨hmem, hsome⟩ := List.mem_filter.mp hentry
  have hget : store.rows.get? owner = some rows :=
    Table.lookup_of_mem hreachable.nodup_keys_rows hmem
  unfold rowsOf
  rw [hget]
  rintro rfl
  cases hsome

end Store

end ModCatalog
