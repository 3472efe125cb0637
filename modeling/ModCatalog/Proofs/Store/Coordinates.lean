import Mathlib.Data.List.Induction
import ModCatalog.Proofs.Store.History

/-!
# Coordinates of mods that are gone

A mod can be found by several coordinates while its record notes one.  Removing the mod, or letting
another absorb it, follows the record only, so the other coordinates keep leading to a number
without a mod.  They are the only ones that do.
-/

namespace ModCatalog.Store

/-- Whether a change removes the mod that a coordinate leads to although its record does not note
that coordinate. -/
def LeavesBehind (store : Store) (change : Change) (coordinate : String) (id : Nat) : Prop :=
  store.findByCoordinate coordinate = .ok (some id) ∧
    (∃ record, store.mod? id = some record ∧ record.coordinate ≠ some coordinate) ∧
    (store.after change).mod? id = none

variable {store after : Store} {coordinate : String} {id : Nat}

/-! ## One change -/

/-- An entry whose mod is gone after a change was there before the change. -/
theorem Effect.coordinate_of_gone (heffect : store.Effect after)
    (hleads : after.coordinates.get? coordinate = some id) (hgone : after.mod? id = none) :
    store.coordinates.get? coordinate = some id := by
  cases heffect with
  | kept seenFiles rows hafter =>
      subst hafter
      exact hleads
  | wrote record hwrote =>
      rcases hwrote.coordinates coordinate with hkept | hnew
      · rwa [hkept] at hleads
      · cases hnew.symm.trans hleads
        rw [hwrote.mods, if_pos rfl] at hgone
        cases hgone
  | deleted other record hrecord hafter =>
      subst hafter
      rw [coordinates_deleteMod hrecord] at hleads
      split at hleads
      · cases hleads
      · exact hleads
  | absorbed target old record link habsorbed =>
      rw [habsorbed.coordinates] at hleads
      split at hleads
      · cases hleads
        rw [habsorbed.mod?_target] at hgone
        cases hgone
      · exact hleads

/-- A removed mod leaves no entry under the coordinate that its record notes. -/
theorem Effect.coordinate_of_removed (heffect : store.Effect after) {record : ModRecord}
    (hrecord : store.mod? id = some record) (hgone : after.mod? id = none)
    (hleads : after.coordinates.get? coordinate = some id) :
    record.coordinate ≠ some coordinate := by
  intro hnoted
  have hbefore := heffect.coordinate_of_gone hleads hgone
  cases heffect with
  | kept seenFiles rows hafter =>
      subst hafter
      cases hrecord.symm.trans hgone
  | wrote written hwrote =>
      rw [hwrote.mods, hrecord] at hgone
      split at hgone <;> cases hgone
  | deleted other found hfound hafter =>
      subst hafter
      rw [mod?_deleteMod, hrecord] at hgone
      split at hgone
      · next hid =>
          subst hid
          cases hfound.symm.trans hrecord
          rw [coordinates_deleteMod hrecord, if_pos ⟨hnoted, hbefore⟩] at hleads
          cases hleads
      · cases hgone
  | absorbed target old merged link habsorbed =>
      rw [habsorbed.mods, hrecord] at hgone
      split at hgone
      · cases hgone
      · next htarget =>
          split at hgone
          · next hid =>
              subst hid
              cases habsorbed.found_old.symm.trans hrecord
              rw [habsorbed.coordinates, if_pos hnoted] at hleads
              exact htarget (Option.some.inj hleads).symm
          · cases hgone

theorem Consistent.leavesBehind_or_gone (hstore : store.Consistent) {change : Change}
    (hleads : (store.after change).findByCoordinate coordinate = .ok (some id))
    (hgone : (store.after change).mod? id = none) :
    store.LeavesBehind change coordinate id ∨
      store.findByCoordinate coordinate = .ok (some id) ∧ store.mod? id = none := by
  have heffect := hstore.effect change
  obtain ⟨hkey, hentry⟩ := findByCoordinate_eq_some.mp hleads
  have hbefore : store.findByCoordinate coordinate = .ok (some id) :=
    findByCoordinate_eq_some.mpr ⟨hkey, heffect.coordinate_of_gone hentry hgone⟩
  cases hrecord : store.mod? id with
  | none => exact Or.inr ⟨hbefore, rfl⟩
  | some record =>
      have hnoted := heffect.coordinate_of_removed hrecord hgone hentry
      exact Or.inl ⟨hbefore, ⟨record, hrecord, hnoted⟩, hgone⟩

/-! ## A whole history -/

/-- A coordinate leads to a mod that is gone only because some change left it behind. -/
theorem exists_leavesBehind {changes : List Change}
    (hleads : (empty.afterAll changes).findByCoordinate coordinate = .ok (some id))
    (hgone : (empty.afterAll changes).mod? id = none) :
    ∃ done change, done ++ [change] <+: changes ∧
      (empty.afterAll done).LeavesBehind change coordinate id := by
  induction changes using List.reverseRecOn with
  | nil =>
      obtain ⟨_, hentry⟩ := findByCoordinate_eq_some.mp hleads
      cases hentry
  | append_singleton earlier change ih =>
      rw [afterAll_concat] at hleads hgone
      have hstore := Consistent.empty.afterAll earlier
      rcases hstore.leavesBehind_or_gone hleads hgone with hleft | ⟨hbefore, hnone⟩
      · exact ⟨earlier, change, List.prefix_refl _, hleft⟩
      · obtain ⟨done, cause, hdone, hleft⟩ := ih hbefore hnone
        exact ⟨done, cause, hdone.trans (List.prefix_append earlier [change]), hleft⟩

/-- A mod that some change of a history left behind is gone in the end. -/
theorem gone_of_leavesBehind {changes done : List Change} {change : Change}
    (hbegins : done ++ [change] <+: changes)
    (hleft : (empty.afterAll done).LeavesBehind change coordinate id) :
    (empty.afterAll changes).mod? id = none := by
  obtain ⟨rest, rfl⟩ := hbegins
  obtain ⟨_, ⟨record, hrecord, _⟩, hgone⟩ := hleft
  have hstore := Consistent.empty.afterAll done
  have heffect := hstore.effect change
  rw [afterAll_append, afterAll_concat]
  have hid := Nat.lt_of_lt_of_le (hstore.numbered hrecord) heffect.nextId_le
  exact (heffect.consistent hstore).gone_afterAll hid hgone rest

/-! ## Looking for a mod that is gone -/

/-- Asking for the mod of a coordinate, or a new one, fails on a number without a mod exactly if
the coordinate leads there. -/
theorem findOrCreate_unknownMod_iff (store : Store) (coordinate : String) (new : NewMod)
    (id : Nat) :
    ((Transaction.findOrCreate (.coordinate coordinate) new).commit store).1 =
        .error (.storage (.unknownMod id)) ↔
      store.findByCoordinate coordinate = .ok (some id) ∧ store.mod? id = none := by
  have hcreate : Transaction.OnlyBadKeys (do
      let created ← Transaction.createMod new
      let linked ← Transaction.setCoordinate created coordinate
      Transaction.writeMod linked
      return (linked, true)) :=
    Transaction.onlyBadKeys_bind (Transaction.onlyBadKeys_createMod new) fun created =>
      Transaction.onlyBadKeys_bind (Transaction.onlyBadKeys_setCoordinate created coordinate)
        fun linked => Transaction.onlyBadKeys_bind (Transaction.onlyBadKeys_modify _)
          fun _ => Transaction.onlyBadKeys_pure _
  rw [Transaction.commit_fst_eq_error, Transaction.findOrCreate, Transaction.run_bind_eq_error]
  simp only [Transaction.run_get_eq_ok, Transaction.run_bind_eq_error,
    Transaction.run_liftM_eq_error, Transaction.run_liftM_eq_ok]
  constructor
  · intro h
    rcases h with h | ⟨_, _, ⟨rfl, rfl⟩, hrefused | ⟨found, _, ⟨hfound, rfl⟩, h⟩⟩
    · cases h
    · cases findByCoordinate_eq_error hrefused
    · cases found with
      | none => cases hcreate store _ h
      | some owner =>
          rcases Transaction.run_bind_eq_error.mp h with h | ⟨_, _, _, h⟩
          · obtain ⟨hnone, hfault⟩ := Transaction.run_requireMod_eq_error.mp h
            cases hfault
            exact ⟨hfound, hnone⟩
          · cases h
  · intro h
    obtain ⟨hfound, hnone⟩ := h
    refine Or.inr ⟨store, store, ⟨rfl, rfl⟩, Or.inr ⟨some id, store, ⟨hfound, rfl⟩, ?_⟩⟩
    exact Transaction.run_bind_eq_error.mpr
      (Or.inl (Transaction.run_requireMod_eq_error.mpr ⟨hnone, rfl⟩))

theorem findByCoordinate_deleteMod_iff (store : Store) (coordinate : String) (id : Nat) :
    (store.after (.deleteMod id)).findByCoordinate coordinate = .ok (some id) ↔
      store.findByCoordinate coordinate = .ok (some id) ∧
        ∀ record, store.mod? id = some record → record.coordinate ≠ some coordinate := by
  have hafter : store.after (.deleteMod id) = store.deleteMod id := rfl
  rw [hafter, findByCoordinate_eq_some, findByCoordinate_eq_some]
  cases hrecord : store.mod? id with
  | none => simp [deleteMod_eq_self hrecord]
  | some record =>
      rw [coordinates_deleteMod hrecord]
      split
      · next h => simp [h.1]
      · next h =>
          constructor
          · intro h
            obtain ⟨hkey, hleads⟩ := h
            refine ⟨⟨hkey, hleads⟩, ?_⟩
            intro _ hsame hnoted
            cases hsame
            exact h ⟨hnoted, hleads⟩
          · exact fun h => h.1

/-- After any history, a coordinate leads to a mod that is gone exactly if the mod was left behind
under it and the coordinate was not given to another mod since.  The mod cannot be asked for then,
and removing a mod frees only the coordinate that its record notes. -/
theorem coordinate_dangles_iff (changes : List Change) (coordinate : String) (id : Nat)
    (new : NewMod) :
    let store := empty.afterAll changes
    (store.findByCoordinate coordinate = .ok (some id) ∧ store.mod? id = none ↔
      store.findByCoordinate coordinate = .ok (some id) ∧
        ∃ done change, done ++ [change] <+: changes ∧
          (empty.afterAll done).LeavesBehind change coordinate id) ∧
    (((Transaction.findOrCreate (.coordinate coordinate) new).commit store).1 =
        .error (.storage (.unknownMod id)) ↔
      store.findByCoordinate coordinate = .ok (some id) ∧ store.mod? id = none) ∧
    ((store.after (.deleteMod id)).findByCoordinate coordinate = .ok (some id) ↔
      store.findByCoordinate coordinate = .ok (some id) ∧
        ∀ record, store.mod? id = some record → record.coordinate ≠ some coordinate) := by
  refine ⟨⟨?_, ?_⟩, ?_, ?_⟩
  · intro h
    obtain ⟨hleads, hgone⟩ := h
    exact ⟨hleads, exists_leavesBehind hleads hgone⟩
  · intro h
    obtain ⟨hleads, done, change, hbegins, hleft⟩ := h
    exact ⟨hleads, gone_of_leavesBehind hbegins hleft⟩
  · exact findOrCreate_unknownMod_iff _ coordinate new id
  · exact findByCoordinate_deleteMod_iff _ coordinate id

/-- A second coordinate of a mod still leads to its number after the mod was removed. -/
theorem second_coordinate_outlives_mod :
    let store := empty.afterAll [.createMod ⟨"", "", some "org.x:lib", []⟩,
      .linkCoordinate 1 "fabric-lib", .deleteMod 1]
    store.findByCoordinate "fabric-lib" = .ok (some 1) ∧ store.mod? 1 = none ∧
      ((Transaction.findOrCreate (.coordinate "fabric-lib") ⟨"", "", none, []⟩).commit store).1 =
        .error (.storage (.unknownMod 1)) :=
  ⟨rfl, rfl, rfl⟩

end ModCatalog.Store
