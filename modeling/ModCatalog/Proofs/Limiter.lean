import ModCatalog.Limiter

/-!
# A batch alone

Where no batch is registered, a batch can enter and take the whole ceiling, and it can leave again.
-/

namespace ModCatalog

/-- From no capacity at all, a semaphore can get any. -/
theorem Semaphore.exists_resize (capacity : UInt64) :
    ∃ after, (Semaphore.ofCapacity 0).resize capacity = .ok after := by
  have hzero : (Semaphore.ofCapacity 0).capacity.toInt64.toInt = 0 := rfl
  have hword : isWord (capacity.toInt64.toInt - 0) = true := by
    rw [isWord, Int.sub_zero]
    exact Bool.and_eq_true_iff.mpr ⟨decide_eq_true (Int64.minValue_le_toInt _),
      decide_eq_true (Int64.toInt_le _)⟩
  unfold resize
  rw [hzero, if_pos hword]
  exact ⟨_, rfl⟩

namespace Limiter

variable {limiter : Limiter}

/-- Gates that can all be resized are resized one by one. -/
theorem mapM_resizeGate {ceiling : UInt64} {sharing gates : List Gate} {change : Gate → Gate}
    (h : ∀ gate ∈ gates, resizeGate ceiling sharing gate = .ok (change gate)) :
    gates.mapM (resizeGate ceiling sharing) = .ok (gates.map change) := by
  induction gates with
  | nil => rfl
  | cons gate rest ih =>
      obtain ⟨hfirst, hrest⟩ := List.forall_mem_cons.mp h
      rw [List.mapM_cons, hfirst, ih hrest]
      rfl

theorem mapM_resizeGate_of_unregistered (ceiling : UInt64) (sharing : List Gate) {gates : List Gate}
    (hnone : ∀ gate ∈ gates, gate.registered = false) :
    gates.mapM (resizeGate ceiling sharing) = .ok gates := by
  have hgate : ∀ gate ∈ gates, resizeGate ceiling sharing gate = .ok (id gate) := by
    intro gate hmem
    unfold resizeGate
    rw [hnone gate hmem]
    rfl
  rw [mapM_resizeGate hgate, List.map_id]

theorem exists_resizeGate (ceiling : UInt64) (sharing : List Gate) (gate : Gate)
    (hempty : gate.semaphore = .ofCapacity 0) :
    ∃ resized, resizeGate ceiling sharing gate = .ok resized ∧ resized.id = gate.id := by
  cases hregistered : gate.registered with
  | false =>
      refine ⟨gate, ?_, rfl⟩
      unfold resizeGate
      rw [hregistered]
      rfl
  | true =>
      obtain ⟨semaphore, hsemaphore⟩ :=
        Semaphore.exists_resize (UInt64.ofNat (share ceiling.toNat sharing gate))
      refine ⟨{ gate with semaphore := semaphore }, ?_, rfl⟩
      unfold resizeGate
      rw [hregistered, hempty]
      dsimp only
      rw [hsemaphore]
      rfl

theorem registered_eq_nil_iff :
    limiter.registered = [] ↔ ∀ gate ∈ limiter.gates, gate.registered = false := by
  simp [registered, List.filter_eq_nil_iff]

/-- A batch that enters alone is the only one that is registered then. -/
theorem exists_enter (halone : limiter.registered = []) {weight : Nat} (hweight : weight ≠ 0) :
    ∃ id joined, limiter.enter weight = .ok (id, joined) ∧
      ∀ gate ∈ joined.gates, gate.registered → gate.id = id := by
  have hnone := registered_eq_nil_iff.mp halone
  let gate : Gate := ⟨limiter.nextId, weight, .ofCapacity 0, true, true, false⟩
  let sharing := Limiter.registered ⟨limiter.ceiling, limiter.nextId + 1, limiter.gates ++ [gate]⟩
  obtain ⟨resized, hresized, hid⟩ :=
    exists_resizeGate limiter.ceiling sharing gate rfl
  have hgates : (limiter.gates ++ [gate]).mapM (resizeGate limiter.ceiling sharing) =
      .ok (limiter.gates ++ [resized]) := by
    rw [List.mapM_append, mapM_resizeGate_of_unregistered _ _ hnone, List.mapM_cons, hresized]
    rfl
  refine ⟨limiter.nextId, ⟨limiter.ceiling, limiter.nextId + 1,
    limiter.gates ++ [resized]⟩, ?_, ?_⟩
  · unfold enter register redistribute
    rw [if_neg hweight]
    dsimp only
    rw [hgates]
    rfl
  · intro other hother hregistered
    rcases List.mem_append.mp hother with hbefore | hnew
    · rw [hnone other hbefore] at hregistered
      cases hregistered
    · rw [List.mem_singleton.mp hnew, hid]

/-- A batch can leave if no other one is registered. -/
theorem exists_drop {id : Nat} (honly : ∀ gate ∈ limiter.gates, gate.registered → gate.id = id) :
    ∃ left, limiter.drop id = .ok left := by
  unfold drop
  dsimp only
  split
  · unfold leave redistribute
    have hnone : ∀ gate ∈ (limiter.closeGate id).gates.map (fun gate =>
        if gate.id = id then { gate with registered := false } else gate),
        gate.registered = false := by
      intro gate hgate
      obtain ⟨closed, hclosed, rfl⟩ := List.mem_map.mp hgate
      obtain ⟨old, hold, rfl⟩ := List.mem_map.mp hclosed
      by_cases hid : old.id = id
      · simp [hid]
      · have hregistered : old.registered = false := by
          cases hcase : old.registered with
          | false => rfl
          | true => exact absurd (honly old hold hcase) hid
        simp [hid, hregistered]
    rw [mapM_resizeGate_of_unregistered _ _ hnone]
    exact ⟨_, rfl⟩
  · exact ⟨_, rfl⟩

end Limiter

end ModCatalog
