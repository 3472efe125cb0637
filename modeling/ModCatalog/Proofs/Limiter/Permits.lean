import ModCatalog.Proofs.Limiter
import ModCatalog.Proofs.Limiter.Shares

/-!
# Permits that are out

The balance of a semaphore is its capacity less the permits that are out, also while it is negative.
For capacities whose sign can be told this holds in the integers, however often the capacity changes,
and so no change of capacity fails.
-/

namespace ModCatalog

namespace Semaphore

theorem toInt_toInt64 {word : UInt64} (h : word.toNat < 2 ^ 63) :
    word.toInt64.toInt = word.toNat := by
  have hbits : word.toInt64.toInt = (word.toNat : Int).bmod (2 ^ 64) :=
    BitVec.toInt_eq_toNat_bmod word.toBitVec
  rw [hbits, Int.bmod_eq_of_le] <;> omega

theorem toInt_add {a b : Int64} (hlow : -2 ^ 63 ≤ a.toInt + b.toInt)
    (hhigh : a.toInt + b.toInt < 2 ^ 63) : (a + b).toInt = a.toInt + b.toInt := by
  rw [Int64.toInt_add, Int.bmod_eq_of_le] <;> omega

theorem toInt_sub {a b : Int64} (hlow : -2 ^ 63 ≤ a.toInt - b.toInt)
    (hhigh : a.toInt - b.toInt < 2 ^ 63) : (a - b).toInt = a.toInt - b.toInt := by
  rw [Int64.toInt_sub, Int.bmod_eq_of_le] <;> omega

theorem isWord_iff (n : Int) : isWord n = true ↔ -2 ^ 63 ≤ n ∧ n < 2 ^ 63 := by
  have hmin : Int64.minValue.toInt = -2 ^ 63 := by decide
  have hmax : Int64.maxValue.toInt = 2 ^ 63 - 1 := by decide
  unfold isWord
  rw [hmin, hmax, Bool.and_eq_true, decide_eq_true_iff, decide_eq_true_iff]
  omega

/-- Whether `held` permits are out. -/
structure Lends (semaphore : Semaphore) (held : Int) : Prop where
  capacity_lt : semaphore.capacity.toNat < 2 ^ 63
  nonneg : 0 ≤ held
  held_lt : held < 2 ^ 63
  available_eq : semaphore.available.toInt = semaphore.capacity.toNat - held

theorem lends_ofCapacity_zero : (ofCapacity 0).Lends 0 :=
  ⟨by decide, by decide, by decide, by decide⟩

/-- The semaphore after a change of its capacity. -/
def resized (semaphore : Semaphore) (capacity : UInt64) : Semaphore :=
  ⟨capacity, semaphore.available + (capacity.toInt64 - semaphore.capacity.toInt64)⟩

section Lends

variable {semaphore : Semaphore} {held : Int}

theorem Lends.resize_eq (h : semaphore.Lends held) {capacity : UInt64}
    (hcapacity : capacity.toNat < 2 ^ 63) :
    semaphore.resize capacity = .ok (semaphore.resized capacity) := by
  have hword : isWord (capacity.toInt64.toInt - semaphore.capacity.toInt64.toInt) = true := by
    have hold := h.capacity_lt
    rw [toInt_toInt64 hcapacity, toInt_toInt64 hold, isWord_iff]
    omega
  unfold resize
  rw [if_pos hword]
  rfl

/-- A change of the capacity leaves the permits out that are out. -/
theorem Lends.resized (h : semaphore.Lends held) {capacity : UInt64}
    (hcapacity : capacity.toNat < 2 ^ 63) : (semaphore.resized capacity).Lends held := by
  obtain ⟨hold, hnonneg, hheld, havailable⟩ := h
  refine ⟨hcapacity, hnonneg, hheld, ?_⟩
  have hdifference : (capacity.toInt64 - semaphore.capacity.toInt64).toInt =
      capacity.toNat - semaphore.capacity.toNat := by
    rw [toInt_sub] <;> rw [toInt_toInt64 hcapacity, toInt_toInt64 hold] <;> omega
  have hsum : (semaphore.resized capacity).available.toInt =
      semaphore.available.toInt + (capacity.toInt64 - semaphore.capacity.toInt64).toInt := by
    apply toInt_add <;> omega
  rw [hsum, hdifference, havailable]
  show _ = (capacity.toNat : Int) - held
  omega

theorem Lends.held_eq (h : semaphore.Lends held) : semaphore.held.toInt = held := by
  obtain ⟨hcapacity, hnonneg, hheld, havailable⟩ := h
  unfold Semaphore.held
  rw [toInt_sub] <;> rw [toInt_toInt64 hcapacity] <;> omega

theorem Lends.isSome_tryAcquire_iff (h : semaphore.Lends held) :
    semaphore.tryAcquire.isSome ↔ held < semaphore.capacity.toNat := by
  have havailable := h.available_eq
  have hzero : (0 : Int64).toInt = 0 := by decide
  unfold tryAcquire
  rw [Option.isSome_ite, Int64.lt_iff_toInt_lt, hzero]
  omega

theorem Lends.tryAcquire (h : semaphore.Lends held) {after : Semaphore}
    (hacquire : semaphore.tryAcquire = some after) :
    after.capacity = semaphore.capacity ∧ after.Lends (held + 1) := by
  have hfree := h.isSome_tryAcquire_iff.mp (Option.isSome_of_eq_some hacquire)
  obtain ⟨hcapacity, hnonneg, hheld, havailable⟩ := h
  have hone : (1 : Int64).toInt = 1 := by decide
  unfold Semaphore.tryAcquire at hacquire
  split at hacquire
  · cases hacquire
    refine ⟨rfl, hcapacity, by omega, by omega, ?_⟩
    show (semaphore.available - 1).toInt = semaphore.capacity.toNat - (held + 1)
    rw [toInt_sub] <;> rw [hone] <;> omega
  · cases hacquire

theorem Lends.release (h : semaphore.Lends held) (hsome : 0 < held) :
    semaphore.release.Lends (held - 1) := by
  obtain ⟨hcapacity, hnonneg, hheld, havailable⟩ := h
  have hone : (1 : Int64).toInt = 1 := by decide
  refine ⟨hcapacity, by omega, by omega, ?_⟩
  show (semaphore.available + 1).toInt = semaphore.capacity.toNat - (held - 1)
  rw [toInt_add] <;> rw [hone] <;> omega

end Lends

end Semaphore

/-! ## All gates of a limiter -/

/-- The gate when its share is dealt out again. -/
def Gate.dealt (ceiling : UInt64) (sharing : List Gate) (gate : Gate) : Gate :=
  if gate.registered then
    { gate with semaphore :=
        gate.semaphore.resized (UInt64.ofNat (Limiter.share ceiling.toNat sharing gate)) }
  else gate

section Dealt

variable (ceiling : UInt64) (sharing : List Gate) (gate : Gate)

@[simp] theorem Gate.dealt_id : (gate.dealt ceiling sharing).id = gate.id := by
  unfold dealt
  split <;> rfl

@[simp] theorem Gate.dealt_weight : (gate.dealt ceiling sharing).weight = gate.weight := by
  unfold dealt
  split <;> rfl

@[simp] theorem Gate.dealt_registered :
    (gate.dealt ceiling sharing).registered = gate.registered := by
  unfold dealt
  split <;> rfl

end Dealt

namespace Limiter

/-- Whether the gates are listed in join order and `held` tells how many permits of each are out. -/
structure Lends (limiter : Limiter) (held : Nat → Int) : Prop where
  ordered : AreInOrder limiter.gates
  below_nextId : ∀ gate ∈ limiter.gates, gate.id < limiter.nextId
  lends : ∀ gate ∈ limiter.gates, gate.semaphore.Lends (held gate.id)
  unheld : ∀ id, limiter.nextId ≤ id → held id = 0

/-- Whether every registered gate has its share. -/
def IsDealt (limiter : Limiter) : Prop :=
  ∀ gate ∈ limiter.registered,
    gate.semaphore.capacity.toNat = share limiter.ceiling.toNat limiter.registered gate

variable {limiter : Limiter} {held : Nat → Int}

theorem Lends.registered_ordered (h : limiter.Lends held) : AreInOrder limiter.registered :=
  h.ordered.filter _

/-- The limiter when the ceiling is dealt out again. -/
def dealt (limiter : Limiter) : Limiter :=
  { limiter with gates := limiter.gates.map (Gate.dealt limiter.ceiling limiter.registered) }

theorem filter_registered_map {change : Gate → Gate}
    (hregistered : ∀ gate, (change gate).registered = gate.registered) (gates : List Gate) :
    (gates.map change).filter Gate.registered = (gates.filter Gate.registered).map change := by
  rw [List.filter_map, show Gate.registered ∘ change = Gate.registered from funext hregistered]

theorem registered_dealt (limiter : Limiter) :
    limiter.dealt.registered =
      limiter.registered.map (Gate.dealt limiter.ceiling limiter.registered) :=
  filter_registered_map (Gate.dealt_registered _ _) limiter.gates

theorem Lends.share_lt (h : limiter.Lends held) (hceiling : limiter.ceiling.toNat < 2 ^ 63)
    {gate : Gate} (hgate : gate ∈ limiter.gates) (hregistered : gate.registered) :
    (UInt64.ofNat (share limiter.ceiling.toNat limiter.registered gate)).toNat =
        share limiter.ceiling.toNat limiter.registered gate ∧
      share limiter.ceiling.toNat limiter.registered gate < 2 ^ 63 := by
  have hmem : gate ∈ limiter.registered := List.mem_filter.mpr ⟨hgate, hregistered⟩
  have hle : share limiter.ceiling.toNat limiter.registered gate ≤ limiter.ceiling.toNat :=
    share_le h.registered_ordered hmem
  refine ⟨UInt64.toNat_ofNat_of_lt' ?_, by omega⟩
  simp only [UInt64.size]
  omega

/-- Dealing out again never fails and leaves the permits out that are out. -/
theorem Lends.redistribute_eq (h : limiter.Lends held) (hceiling : limiter.ceiling.toNat < 2 ^ 63) :
    limiter.redistribute = .ok limiter.dealt := by
  have hgate : ∀ gate ∈ limiter.gates, resizeGate limiter.ceiling limiter.registered gate =
      .ok (gate.dealt limiter.ceiling limiter.registered) := by
    intro gate hgate
    unfold resizeGate Gate.dealt
    cases hregistered : gate.registered with
    | false => rfl
    | true =>
        obtain ⟨hword, hlt⟩ := h.share_lt hceiling hgate hregistered
        dsimp only
        rw [(h.lends gate hgate).resize_eq (by omega)]
        rfl
  unfold redistribute
  rw [mapM_resizeGate hgate]
  rfl

theorem Lends.dealt (h : limiter.Lends held) (hceiling : limiter.ceiling.toNat < 2 ^ 63) :
    limiter.dealt.Lends held := by
  refine ⟨h.ordered.map (Gate.dealt_id _ _), ?_, ?_, h.unheld⟩
  · intro gate hgate
    obtain ⟨old, hold, rfl⟩ := List.mem_map.mp hgate
    rw [Gate.dealt_id]
    exact h.below_nextId old hold
  · intro gate hgate
    obtain ⟨old, hold, rfl⟩ := List.mem_map.mp hgate
    rw [Gate.dealt_id]
    unfold Gate.dealt
    split
    · next hregistered =>
        obtain ⟨hword, hlt⟩ := h.share_lt hceiling hold hregistered
        exact (h.lends old hold).resized (by omega)
    · exact h.lends old hold

theorem Lends.isDealt (h : limiter.Lends held) (hceiling : limiter.ceiling.toNat < 2 ^ 63) :
    limiter.dealt.IsDealt := by
  intro gate hgate
  rw [registered_dealt] at hgate ⊢
  obtain ⟨old, hold, rfl⟩ := List.mem_map.mp hgate
  obtain ⟨hmem, hregistered⟩ := List.mem_filter.mp hold
  rw [show limiter.dealt.ceiling = limiter.ceiling from rfl,
    share_map _ (Gate.dealt_id _ _) (Gate.dealt_weight _ _)]
  unfold Gate.dealt
  rw [if_pos hregistered]
  exact (h.share_lt hceiling hmem hregistered).1

end Limiter

end ModCatalog
