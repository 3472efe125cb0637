import Mathlib.Algebra.BigOperators.Ring.Finset
import Mathlib.Algebra.Order.BigOperators.Group.List
import Mathlib.Algebra.Order.Ring.Int
import Mathlib.Data.Int.Cast.Lemmas
import Mathlib.Data.List.Induction
import ModCatalog.Proofs.Limiter.Permits

/-!
# Fairness of a limiter

After any sequence of batches that join and leave and of permits that are taken and given back, the
registered gates share the ceiling as equally as they can, and every gate gives out permits as long
as fewer than its capacity are out.  This holds for the ceilings whose sign can be told, and for no
other.
-/

namespace ModCatalog

/-- What is done to a limiter. -/
inductive LimiterChange
  | join (weight : Nat)
  | leave (id : Nat)
  /-- Take a permit of a gate. -/
  | acquire (id : Nat)
  | release (id : Nat)
deriving DecidableEq, Repr

/-- The number of permits of a gate that were taken and not given back. -/
def LimiterChange.permits (changes : List LimiterChange) (id : Nat) : Int :=
  changes.count (.acquire id) - changes.count (.release id)

/-- The permits of a semaphore that are not free. -/
def Semaphore.balance (semaphore : Semaphore) : Int :=
  semaphore.capacity.toNat - semaphore.available.toInt

namespace Limiter

open LimiterChange (permits)

/-- The limiter after a change that succeeds. -/
def after? (limiter : Limiter) : LimiterChange → Option Limiter
  | .join weight => (limiter.join weight).toOption.map Prod.snd
  | .leave id => (limiter.leave id).toOption
  | .acquire id => limiter.tryAcquire id
  | .release id => limiter.release? id

/-- The limiter after changes of which every one succeeds. -/
def afterAll? (limiter : Limiter) (changes : List LimiterChange) : Option Limiter :=
  changes.foldlM after? limiter

/-- Whether every gate is still there, with its number and weight and as many permits out. -/
def KeepsPermits (limiter next : Limiter) : Prop :=
  ∀ gate ∈ limiter.gates, ∃ later ∈ next.gates, later.id = gate.id ∧
    later.weight = gate.weight ∧ later.semaphore.balance = gate.semaphore.balance

/-- What is true of a limiter with a ceiling after changes. -/
structure IsFair (ceiling : Nat) (changes : List LimiterChange) (limiter : Limiter) : Prop where
  /-- The gates are listed in the order in which they joined. -/
  ordered : AreInOrder limiter.gates
  sum : limiter.registered ≠ [] →
    (limiter.registered.map fun gate => gate.semaphore.capacity.toNat).sum = ceiling
  equal : ∀ gate ∈ limiter.registered,
    gate.semaphore.capacity.toNat = ceiling / limiter.registered.length ∨
      gate.semaphore.capacity.toNat = ceiling / limiter.registered.length + 1
  /-- Larger shares go to heavier gates, and to earlier ones of the same weight. -/
  favours : ∀ gate ∈ limiter.registered, ∀ other ∈ limiter.registered,
    other.semaphore.capacity.toNat < gate.semaphore.capacity.toNat →
      other.weight < gate.weight ∨ (other.weight = gate.weight ∧ gate.id < other.id)
  nonneg : ∀ gate ∈ limiter.gates, 0 ≤ permits changes gate.id
  available : ∀ gate ∈ limiter.gates, gate.semaphore.available.toInt =
    gate.semaphore.capacity.toNat - permits changes gate.id
  acquires : ∀ gate ∈ limiter.gates, (limiter.tryAcquire gate.id).isSome ↔
    permits changes gate.id < gate.semaphore.capacity.toNat
  bounded : (∀ gate ∈ limiter.registered, 0 ≤ gate.semaphore.available.toInt) →
    (limiter.registered.map fun gate => permits changes gate.id).sum ≤ ceiling
  joins : ∀ weight ≠ 0, ∃ next, limiter.join weight = .ok (limiter.nextId, next) ∧
    next.registered.map Gate.id = limiter.registered.map Gate.id ++ [limiter.nextId] ∧
    limiter.KeepsPermits next
  leaves : ∀ id, ∃ next, limiter.leave id = .ok next ∧
    next.registered.map Gate.id = (limiter.registered.map Gate.id).filter (· ≠ id) ∧
    limiter.KeepsPermits next
  refuses : limiter.join 0 = .error (.configuration .zeroWeight)

/-! ## Batches that join and leave -/

variable {limiter : Limiter} {held : Nat → Int}

/-- The limiter with one more gate that has no capacity yet. -/
def withGate (limiter : Limiter) (weight : Nat) : Limiter :=
  { limiter with
    nextId := limiter.nextId + 1
    gates := limiter.gates ++ [⟨limiter.nextId, weight, .ofCapacity 0, true, false, false⟩] }

/-- The gate where it takes no part in the ceiling if it has a number. -/
def apart (id : Nat) (gate : Gate) : Gate :=
  if gate.id = id then { gate with registered := false } else gate

@[simp] theorem apart_id (id : Nat) (gate : Gate) : (apart id gate).id = gate.id := by
  unfold apart
  split <;> rfl

@[simp] theorem apart_weight (id : Nat) (gate : Gate) : (apart id gate).weight = gate.weight := by
  unfold apart
  split <;> rfl

@[simp] theorem apart_semaphore (id : Nat) (gate : Gate) :
    (apart id gate).semaphore = gate.semaphore := by
  unfold apart
  split <;> rfl

theorem apart_registered (id : Nat) (gate : Gate) :
    (apart id gate).registered = (gate.registered && gate.id ≠ id) := by
  unfold apart
  split <;> simp [*]

/-- The limiter where a gate takes no part in the ceiling. -/
def without (limiter : Limiter) (id : Nat) : Limiter :=
  { limiter with gates := limiter.gates.map (apart id) }

theorem Lends.withGate (h : limiter.Lends held) (weight : Nat) :
    (limiter.withGate weight).Lends held := by
  refine ⟨?_, ?_, ?_, fun id hid => h.unheld id (by
    have hnext : (limiter.withGate weight).nextId = limiter.nextId + 1 := rfl
    omega)⟩
  · refine List.pairwise_append.mpr ⟨h.ordered, List.pairwise_singleton _ _, ?_⟩
    intro gate hgate other hother
    rw [List.mem_singleton.mp hother]
    exact h.below_nextId gate hgate
  · intro gate hgate
    rcases List.mem_append.mp hgate with hold | hnew
    · exact Nat.lt_succ_of_lt (h.below_nextId gate hold)
    · rw [List.mem_singleton.mp hnew]
      exact Nat.lt_succ_self _
  · intro gate hgate
    rcases List.mem_append.mp hgate with hold | hnew
    · exact h.lends gate hold
    · rw [List.mem_singleton.mp hnew, h.unheld _ (Nat.le_refl _)]
      exact Semaphore.lends_ofCapacity_zero

theorem Lends.join_eq (h : limiter.Lends held) (hceiling : limiter.ceiling.toNat < 2 ^ 63)
    {weight : Nat} (hweight : weight ≠ 0) :
    limiter.join weight = .ok (limiter.nextId, (limiter.withGate weight).dealt) := by
  have hdealt : (limiter.withGate weight).redistribute = .ok (limiter.withGate weight).dealt :=
    (h.withGate weight).redistribute_eq hceiling
  have hjoin : limiter.join weight =
      do return (limiter.nextId, ← (limiter.withGate weight).redistribute) := by
    unfold join register
    rw [if_neg hweight]
    rfl
  rw [hjoin, hdealt]
  rfl

theorem Lends.without (h : limiter.Lends held) (id : Nat) : (limiter.without id).Lends held := by
  refine ⟨h.ordered.map (apart_id id), ?_, ?_, h.unheld⟩
  · intro gate hmem
    obtain ⟨old, hold, rfl⟩ := List.mem_map.mp hmem
    rw [apart_id]
    exact h.below_nextId old hold
  · intro gate hmem
    obtain ⟨old, hold, rfl⟩ := List.mem_map.mp hmem
    rw [apart_id, apart_semaphore]
    exact h.lends old hold

theorem Lends.leave_eq (h : limiter.Lends held) (hceiling : limiter.ceiling.toNat < 2 ^ 63)
    (id : Nat) : limiter.leave id = .ok (limiter.without id).dealt :=
  (h.without id).redistribute_eq hceiling

/-! ## Permits that are taken and given back -/

theorem Lends.gate?_eq (h : limiter.Lends held) {gate : Gate} (hgate : gate ∈ limiter.gates) :
    limiter.gate? gate.id = some gate := by
  obtain ⟨before, after, hgates⟩ := List.append_of_mem hgate
  have hordered := h.ordered
  rw [AreInOrder, hgates] at hordered
  have hbefore := (List.pairwise_append.mp hordered).2.2
  unfold gate?
  rw [hgates]
  refine List.find?_eq_some_iff_append.mpr ⟨decide_eq_true rfl, before, after, rfl, ?_⟩
  intro other hother
  have hlt := hbefore other hother gate List.mem_cons_self
  simp
  omega

theorem mem_of_gate?_eq_some {id : Nat} {gate : Gate} (h : limiter.gate? id = some gate) :
    gate ∈ limiter.gates ∧ gate.id = id :=
  ⟨List.mem_of_find?_eq_some h, by simpa using List.find?_some h⟩

theorem Lends.eq_of_id (h : limiter.Lends held) {gate other : Gate} (hgate : gate ∈ limiter.gates)
    (hother : other ∈ limiter.gates) (hid : other.id = gate.id) : other = gate := by
  have hfound := h.gate?_eq hother
  rw [hid, h.gate?_eq hgate] at hfound
  exact (Option.some.inj hfound).symm

/-- The gate where its semaphore is changed if it has a number. -/
def updated (id : Nat) (update : Semaphore → Semaphore) (gate : Gate) : Gate :=
  if gate.id = id then { gate with semaphore := update gate.semaphore } else gate

section Updated

variable (id : Nat) (update : Semaphore → Semaphore) (gate : Gate)

theorem updated_id : (updated id update gate).id = gate.id := by
  unfold updated
  split <;> rfl

theorem updated_weight : (updated id update gate).weight = gate.weight := by
  unfold updated
  split <;> rfl

theorem updated_registered : (updated id update gate).registered = gate.registered := by
  unfold updated
  split <;> rfl

end Updated

section Update

variable {gate : Gate} {update : Semaphore → Semaphore} {count : Int}

/-- What a change of one semaphore leaves out. -/
theorem Lends.updateGate (h : limiter.Lends held) (hgate : gate ∈ limiter.gates)
    (hlends : (update gate.semaphore).Lends count) :
    (limiter.updateGate gate.id update).Lends (Function.update held gate.id count) := by
  refine ⟨h.ordered.map (updated_id gate.id update), ?_, ?_, ?_⟩
  · intro other hother
    obtain ⟨old, hold, rfl⟩ := List.mem_map.mp hother
    exact (updated_id gate.id update old).symm ▸ h.below_nextId old hold
  · intro other hother
    obtain ⟨old, hold, rfl⟩ := List.mem_map.mp hother
    by_cases hid : old.id = gate.id
    · obtain rfl := h.eq_of_id hgate hold hid
      rw [if_pos rfl, Function.update_self]
      exact hlends
    · rw [if_neg hid, Function.update_of_ne hid]
      exact h.lends old hold
  · intro id hid
    have hlt := h.below_nextId gate hgate
    rw [Function.update_of_ne (by
      have hnext : (limiter.updateGate gate.id update).nextId = limiter.nextId := rfl
      omega)]
    exact h.unheld id hid

theorem Lends.isDealt_updateGate (h : limiter.Lends held) (hgate : gate ∈ limiter.gates)
    (hcapacity : (update gate.semaphore).capacity = gate.semaphore.capacity)
    (hdealt : limiter.IsDealt) : (limiter.updateGate gate.id update).IsDealt := by
  have hregistered : (limiter.updateGate gate.id update).registered =
      limiter.registered.map (updated gate.id update) :=
    filter_registered_map (updated_registered _ _) limiter.gates
  intro other hother
  rw [hregistered] at hother ⊢
  obtain ⟨old, hold, rfl⟩ := List.mem_map.mp hother
  have hceiling : (limiter.updateGate gate.id update).ceiling = limiter.ceiling := rfl
  rw [hceiling, share_map _ (updated_id _ _) (updated_weight _ _), ← hdealt old hold]
  unfold updated
  split
  · next hid =>
      obtain rfl := h.eq_of_id hgate (List.mem_of_mem_filter hold) hid
      rw [hcapacity]
  · rfl

end Update

/-- Whether a permit of a gate can be taken. -/
theorem Lends.isSome_tryAcquire_iff (h : limiter.Lends held) {gate : Gate}
    (hgate : gate ∈ limiter.gates) :
    (limiter.tryAcquire gate.id).isSome ↔ held gate.id < gate.semaphore.capacity.toNat := by
  rw [← (h.lends gate hgate).isSome_tryAcquire_iff]
  unfold tryAcquire
  rw [h.gate?_eq hgate]
  cases hacquire : gate.semaphore.tryAcquire <;> simp [hacquire]

theorem Lends.tryAcquire (h : limiter.Lends held) (hdealt : limiter.IsDealt) {id : Nat}
    {next : Limiter} (hacquire : limiter.tryAcquire id = some next) :
    next.Lends (Function.update held id (held id + 1)) ∧ next.IsDealt ∧
      next.ceiling = limiter.ceiling := by
  obtain ⟨gate, hfound, hgate⟩ := Option.bind_eq_some_iff.mp hacquire
  obtain ⟨semaphore, htaken, hnext⟩ := Option.bind_eq_some_iff.mp hgate
  obtain ⟨hmem, rfl⟩ := mem_of_gate?_eq_some hfound
  cases hnext
  obtain ⟨hcapacity, hlends⟩ := (h.lends gate hmem).tryAcquire htaken
  exact ⟨h.updateGate hmem hlends, h.isDealt_updateGate hmem hcapacity hdealt, rfl⟩

theorem Lends.release? (h : limiter.Lends held) (hdealt : limiter.IsDealt) {id : Nat}
    {next : Limiter} (hrelease : limiter.release? id = some next) :
    next.Lends (Function.update held id (held id - 1)) ∧ next.IsDealt ∧
      next.ceiling = limiter.ceiling := by
  obtain ⟨gate, hfound, hgate⟩ := Option.bind_eq_some_iff.mp hrelease
  obtain ⟨hmem, rfl⟩ := mem_of_gate?_eq_some hfound
  have hlends := h.lends gate hmem
  split at hgate
  · next hsome =>
      cases hgate
      have hzero : (0 : Int64).toInt = 0 := by decide
      rw [Int64.lt_iff_toInt_lt, hlends.held_eq, hzero] at hsome
      exact ⟨h.updateGate hmem (hlends.release hsome), h.isDealt_updateGate hmem rfl hdealt, rfl⟩
  · cases hgate

/-! ## Whole runs -/

theorem permits_concat (changes : List LimiterChange) (change : LimiterChange) :
    permits (changes ++ [change]) = match change with
      | .acquire id => Function.update (permits changes) id (permits changes id + 1)
      | .release id => Function.update (permits changes) id (permits changes id - 1)
      | _ => permits changes := by
  funext other
  cases change with
  | join weight => simp [permits]
  | leave id => simp [permits]
  | acquire id =>
      by_cases hid : other = id
      · subst hid
        simp [permits]
        omega
      · simp [permits, Function.update_of_ne hid, Ne.symm hid]
  | release id =>
      by_cases hid : other = id
      · subst hid
        simp [permits]
        omega
      · simp [permits, Function.update_of_ne hid, Ne.symm hid]

/-- What every change keeps. -/
structure Holds (ceiling : UInt64) (changes : List LimiterChange) (limiter : Limiter) : Prop where
  ceiling_eq : limiter.ceiling = ceiling
  lends : limiter.Lends (permits changes)
  dealt : limiter.IsDealt

theorem Holds.step {ceiling : UInt64} (hceiling : ceiling.toNat < 2 ^ 63)
    {changes : List LimiterChange} {next : Limiter} (h : limiter.Holds ceiling changes)
    (change : LimiterChange) (hafter : limiter.after? change = some next) :
    next.Holds ceiling (changes ++ [change]) := by
  obtain ⟨rfl, hlends, hdealt⟩ := h
  have hpermits := permits_concat changes change
  cases change with
  | join weight =>
      by_cases hweight : weight = 0
      · subst hweight
        cases hafter
      · change (limiter.join weight).toOption.map Prod.snd = some next at hafter
        rw [hlends.join_eq hceiling hweight] at hafter
        cases hafter
        have hjoined := hlends.withGate weight
        exact ⟨rfl, hpermits ▸ hjoined.dealt hceiling, hjoined.isDealt hceiling⟩
  | leave id =>
      change (limiter.leave id).toOption = some next at hafter
      rw [hlends.leave_eq hceiling id] at hafter
      cases hafter
      have hleft := hlends.without id
      exact ⟨rfl, hpermits ▸ hleft.dealt hceiling, hleft.isDealt hceiling⟩
  | acquire id =>
      obtain ⟨hnext, hkept, hsame⟩ := hlends.tryAcquire hdealt hafter
      exact ⟨hsame, hpermits ▸ hnext, hkept⟩
  | release id =>
      obtain ⟨hnext, hkept, hsame⟩ := hlends.release? hdealt hafter
      exact ⟨hsame, hpermits ▸ hnext, hkept⟩

theorem Holds.afterAll? {ceiling : UInt64} (hceiling : ceiling.toNat < 2 ^ 63)
    {start : Limiter} (hstart : Limiter.ofCeiling ceiling = .ok start)
    {changes : List LimiterChange} {limiter : Limiter}
    (hrun : start.afterAll? changes = some limiter) : limiter.Holds ceiling changes := by
  induction changes using List.reverseRecOn generalizing limiter with
  | nil =>
      cases hrun
      unfold ofCeiling at hstart
      split at hstart
      · cases hstart
      · cases hstart
        exact ⟨rfl, ⟨.nil, nofun, nofun, fun _ _ => rfl⟩, nofun⟩
  | append_singleton changes change ih =>
      unfold Limiter.afterAll? at hrun
      rw [List.foldlM_append] at hrun
      obtain ⟨between, hbefore, hlast⟩ := Option.bind_eq_some_iff.mp hrun
      obtain ⟨next, hnext, hsame⟩ := Option.bind_eq_some_iff.mp hlast
      cases hsame
      exact (ih hbefore).step hceiling change hnext

/-- Dealing out again keeps the gates and the permits that are out. -/
theorem Lends.keepsPermits_dealt (h : limiter.Lends held)
    (hceiling : limiter.ceiling.toNat < 2 ^ 63) : limiter.KeepsPermits limiter.dealt := by
  intro gate hgate
  have hmem : gate.dealt limiter.ceiling limiter.registered ∈ limiter.dealt.gates :=
    List.mem_map_of_mem hgate
  have hbefore := (h.lends gate hgate).available_eq
  have hafter := ((h.dealt hceiling).lends _ hmem).available_eq
  rw [Gate.dealt_id] at hafter
  refine ⟨_, hmem, Gate.dealt_id _ _ _, Gate.dealt_weight _ _ _, ?_⟩
  unfold Semaphore.balance
  omega

theorem registered_withGate (limiter : Limiter) (weight : Nat) :
    (limiter.withGate weight).dealt.registered.map Gate.id =
      limiter.registered.map Gate.id ++ [limiter.nextId] := by
  rw [registered_dealt, List.map_map, show Gate.id ∘ _ = Gate.id from funext (Gate.dealt_id _ _)]
  unfold registered withGate
  simp

theorem registered_without (limiter : Limiter) (id : Nat) :
    (limiter.without id).dealt.registered.map Gate.id =
      (limiter.registered.map Gate.id).filter (· ≠ id) := by
  rw [registered_dealt, List.map_map, show Gate.id ∘ _ = Gate.id from funext (Gate.dealt_id _ _)]
  have hids : Gate.id ∘ apart id = Gate.id := funext (apart_id id)
  have hregistered : Gate.registered ∘ apart id = fun gate => gate.registered && gate.id ≠ id :=
    funext (apart_registered id)
  unfold registered without
  rw [List.filter_map, hregistered, List.map_map, hids, List.filter_map, List.filter_filter]
  simp only [Function.comp_def, Bool.and_comm]

theorem Holds.isFair {ceiling : UInt64} (hceiling : ceiling.toNat < 2 ^ 63)
    {changes : List LimiterChange} (h : limiter.Holds ceiling changes) :
    limiter.IsFair ceiling.toNat changes := by
  obtain ⟨rfl, hlends, hdealt⟩ := h
  have hordered := hlends.registered_ordered
  have hcapacities : (limiter.registered.map fun gate => gate.semaphore.capacity.toNat) =
      limiter.registered.map (share limiter.ceiling.toNat limiter.registered) :=
    List.map_congr_left hdealt
  have hsum : limiter.registered ≠ [] →
      (limiter.registered.map fun gate => gate.semaphore.capacity.toNat).sum =
        limiter.ceiling.toNat := by
    intro hsome
    rw [hcapacities, sum_share hordered hsome]
  refine
    { ordered := hlends.ordered
      sum := hsum
      equal := ?equal
      favours := ?favours
      nonneg := fun gate hgate => (hlends.lends gate hgate).nonneg
      available := fun gate hgate => (hlends.lends gate hgate).available_eq
      acquires := fun gate hgate => hlends.isSome_tryAcquire_iff hgate
      bounded := ?bounded
      joins := ?joins
      leaves := ?leaves
      refuses := rfl }
  case equal =>
    intro gate hgate
    rw [hdealt gate hgate]
    exact share_cases _ _ gate
  case favours =>
    intro gate hgate other hother hlt
    rw [hdealt gate hgate, hdealt other hother] at hlt
    exact lighter_or_later_of_share_lt hordered hgate hother hlt
  case bounded =>
    intro hfree
    have hle : (limiter.registered.map fun gate => permits changes gate.id).sum ≤
        (limiter.registered.map fun gate => (gate.semaphore.capacity.toNat : Int)).sum := by
      apply List.sum_le_sum
      intro gate hgate
      have hbalance := (hlends.lends gate (List.mem_of_mem_filter hgate)).available_eq
      have hpositive := hfree gate hgate
      omega
    have hcast : (limiter.registered.map fun gate => (gate.semaphore.capacity.toNat : Int)).sum =
        ((limiter.registered.map fun gate => gate.semaphore.capacity.toNat).sum : Nat) := by
      rw [Nat.cast_list_sum, List.map_map]
      rfl
    by_cases hsome : limiter.registered = []
    · simp [hsome]
    · rwa [hcast, hsum hsome] at hle
  case joins =>
    intro weight hweight
    refine ⟨_, hlends.join_eq hceiling hweight, registered_withGate limiter weight, ?_⟩
    intro gate hgate
    exact (hlends.withGate weight).keepsPermits_dealt hceiling gate (List.mem_append_left _ hgate)
  case leaves =>
    intro id
    refine ⟨_, hlends.leave_eq hceiling id, registered_without limiter id, ?_⟩
    intro gate hgate
    obtain ⟨later, hlater, hid, hweight, hbalance⟩ :=
      (hlends.without id).keepsPermits_dealt hceiling _ (List.mem_map_of_mem hgate)
    refine ⟨later, hlater, ?_⟩
    rw [hid, hweight, hbalance, apart_id, apart_weight]
    unfold Semaphore.balance
    rw [apart_semaphore]
    exact ⟨rfl, rfl, rfl⟩

/-- The ceilings under which a limiter is fair whatever is done are those whose sign can be told. -/
theorem fair_iff (ceiling : UInt64) :
    (∀ start changes limiter, ofCeiling ceiling = .ok start →
      start.afterAll? changes = some limiter → limiter.IsFair ceiling.toNat changes) ↔
      ceiling.toNat < 2 ^ 63 := by
  constructor
  · intro hfair
    by_contra hlarge
    have hstart : ofCeiling ceiling = .ok ⟨ceiling, 1, []⟩ := by
      unfold ofCeiling
      rw [if_neg]
      rintro rfl
      exact hlarge (by decide)
    -- The gate of the first batch would have more permits free than a signed word can tell.
    obtain ⟨next, hjoin, hregistered, -⟩ := (hfair _ [] _ hstart rfl).joins 1 one_ne_zero
    have hrun : (Limiter.mk ceiling 1 []).afterAll? [.join 1] = some next := by
      simp [afterAll?, after?, hjoin, Except.toOption]
    obtain ⟨gate, hone⟩ : ∃ gate, next.registered = [gate] :=
      List.length_eq_one_iff.mp (by simpa [registered] using congrArg List.length hregistered)
    have hnext := hfair _ _ _ hstart hrun
    have hsum := hnext.sum (by rw [hone]; exact List.cons_ne_nil _ _)
    have hmem : gate ∈ next.registered := by rw [hone]; exact List.mem_cons_self
    have havailable := hnext.available gate (List.mem_of_mem_filter hmem)
    have hout : permits [.join 1] gate.id = 0 := by simp [permits]
    have hword := Int64.toInt_lt gate.semaphore.available
    rw [hone, List.map_singleton, List.sum_singleton] at hsum
    omega
  · intro hceiling start changes limiter hstart hrun
    exact (Holds.afterAll? hceiling hstart hrun).isFair hceiling

/-- Under the smallest ceiling that looks negative the second batch cannot join. -/
theorem second_join_fails :
    ∃ start first, ofCeiling 0x8000000000000000 = .ok start ∧ start.join 1 = .ok (1, first) ∧
      first.join 1 = .error .differenceTooGreat :=
  ⟨_, _, rfl, rfl, by decide⟩

end Limiter

end ModCatalog
