import ModCatalog.Fault

/-!
# Limiting concurrency

A ceiling on concurrent tasks that is shared between batches.  Every registered batch has a gate
with a share of the ceiling; when a batch joins or leaves, the shares of all gates change.  Permits
that are out stay valid when a gate shrinks: its balance is then negative until enough of them come
back.  Capacities are words of 64 bits, and balances are signed words.
-/

namespace ModCatalog

/-- A counter of permits whose capacity can change. -/
structure Semaphore where
  capacity : UInt64
  /-- The permits that can be taken; negative when more are out than the capacity allows. -/
  available : Int64
deriving DecidableEq, Repr

namespace Semaphore

def ofCapacity (capacity : UInt64) : Semaphore := ⟨capacity, capacity.toInt64⟩

def held (semaphore : Semaphore) : Int64 := semaphore.capacity.toInt64 - semaphore.available

def tryAcquire (semaphore : Semaphore) : Option Semaphore :=
  if 0 < semaphore.available then some { semaphore with available := semaphore.available - 1 }
  else none

def release (semaphore : Semaphore) : Semaphore :=
  { semaphore with available := semaphore.available + 1 }

/-- Whether a number has a signed word. -/
def isWord (n : Int) : Bool := Int64.minValue.toInt ≤ n && n ≤ Int64.maxValue.toInt

/-- Change the capacity by a difference that must have a word; permits that are out stay out. -/
def resize (semaphore : Semaphore) (capacity : UInt64) : Except Fault Semaphore :=
  if isWord (capacity.toInt64.toInt - semaphore.capacity.toInt64.toInt) then
    .ok ⟨capacity, semaphore.available + (capacity.toInt64 - semaphore.capacity.toInt64)⟩
  else .error .differenceTooGreat

theorem held_resize {semaphore after : Semaphore} {capacity : UInt64}
    (h : semaphore.resize capacity = .ok after) : after.held = semaphore.held := by
  unfold resize at h
  split at h
  · cases h
    simp only [held, Int64.sub_eq_add_neg, Int64.neg_add, Int64.neg_neg]
    generalize capacity.toInt64 = c, semaphore.capacity.toInt64 = s, semaphore.available = a
    have h : c + (-a + (-c + s)) = c + -c + (s + -a) := by ac_rfl
    rw [h, Int64.add_right_neg, Int64.zero_add]
  · cases h

theorem held_release (semaphore : Semaphore) : semaphore.release.held = semaphore.held - 1 := by
  simp only [held, release, Int64.sub_eq_add_neg, Int64.neg_add]
  ac_rfl

theorem held_tryAcquire {semaphore after : Semaphore} (h : semaphore.tryAcquire = some after) :
    after.held = semaphore.held + 1 := by
  unfold tryAcquire at h
  split at h
  · cases h
    simp only [held, Int64.sub_eq_add_neg, Int64.neg_add, Int64.neg_neg]
    ac_rfl
  · cases h

end Semaphore

/-- The gate of a batch. -/
structure Gate where
  id : Nat
  weight : Nat
  semaphore : Semaphore
  /-- Whether the batch takes part in the ceiling. -/
  registered : Bool
  /-- Whether the batch leaves when its gate is dropped. -/
  leavesWithGate : Bool
  /-- Whether the gate can still be used. -/
  dropped : Bool
deriving DecidableEq, Repr

/-- A ceiling and the gates that share it, in the order in which they joined. -/
structure Limiter where
  ceiling : UInt64
  nextId : Nat
  gates : List Gate
deriving DecidableEq, Repr

namespace Limiter

/-- A limiter without gates; there is none for a ceiling of zero. -/
def ofCeiling (ceiling : UInt64) : Except Fault Limiter :=
  if ceiling = 0 then .error (.configuration .zeroCeiling) else .ok ⟨ceiling, 1, []⟩

/-- The gates that share the ceiling. -/
def registered (limiter : Limiter) : List Gate := limiter.gates.filter Gate.registered

/-- The first `count` gates, heaviest first, earlier ones first among equals. -/
def heaviest (count : Nat) (gates : List Gate) : List Gate :=
  (gates.mergeSort fun a b => b.weight ≤ a.weight).take count

/-- The share of a gate: an equal part, and one more for as many of the heaviest as are left
over. -/
def share (ceiling : Nat) (gates : List Gate) (gate : Gate) : Nat :=
  let favoured := (heaviest (ceiling % gates.length) gates).map Gate.id
  ceiling / gates.length + if favoured.contains gate.id then 1 else 0

def resizeGate (ceiling : UInt64) (sharing : List Gate) (gate : Gate) : Except Fault Gate := do
  if !gate.registered then return gate
  let share := UInt64.ofNat (share ceiling.toNat sharing gate)
  return { gate with semaphore := ← gate.semaphore.resize share }

/-- Give every registered gate its share. -/
def redistribute (limiter : Limiter) : Except Fault Limiter := do
  let gates ← limiter.gates.mapM (resizeGate limiter.ceiling limiter.registered)
  return { limiter with gates := gates }

/-- Register a batch of a weight and give it the next number; a weight of zero is refused. -/
def register (limiter : Limiter) (weight : Nat) (leavesWithGate : Bool) :
    Except Fault (Nat × Limiter) := do
  if weight = 0 then throw (.configuration .zeroWeight)
  let gate : Gate := ⟨limiter.nextId, weight, .ofCapacity 0, true, leavesWithGate, false⟩
  let joined := { limiter with
    nextId := limiter.nextId + 1
    gates := limiter.gates ++ [gate] }
  return (limiter.nextId, ← joined.redistribute)

/-- Register a batch until it is taken out. -/
def join (limiter : Limiter) (weight : Nat) : Except Fault (Nat × Limiter) :=
  limiter.register weight false

/-- Register a batch until its gate is dropped. -/
def enter (limiter : Limiter) (weight : Nat) : Except Fault (Nat × Limiter) :=
  limiter.register weight true

/-- Take a batch out of the ceiling; its gate keeps its capacity. -/
def leave (limiter : Limiter) (id : Nat) : Except Fault Limiter :=
  redistribute { limiter with
    gates := limiter.gates.map fun gate =>
      if gate.id = id then { gate with registered := false } else gate }

def gate? (limiter : Limiter) (id : Nat) : Option Gate :=
  limiter.gates.find? fun gate => gate.id = id

def updateGate (limiter : Limiter) (id : Nat) (update : Semaphore → Semaphore) : Limiter :=
  { limiter with
    gates := limiter.gates.map fun gate =>
      if gate.id = id then { gate with semaphore := update gate.semaphore } else gate }

/-- Take a permit of a gate, if one is available. -/
def tryAcquire (limiter : Limiter) (id : Nat) : Option Limiter := do
  let gate ← limiter.gate? id
  let semaphore ← gate.semaphore.tryAcquire
  return limiter.updateGate id fun _ => semaphore

/-- Give a permit of a gate back, if one is out. -/
def release? (limiter : Limiter) (id : Nat) : Option Limiter := do
  let gate ← limiter.gate? id
  if 0 < gate.semaphore.held then return limiter.updateGate id Semaphore.release
  else none

/-- Give all permits of a gate back and put it out of use. -/
def closeGate (limiter : Limiter) (id : Nat) : Limiter :=
  { limiter with
    gates := limiter.gates.map fun gate =>
      if gate.id = id then
        { gate with semaphore := .ofCapacity gate.semaphore.capacity, dropped := true }
      else gate }

/-- Drop a gate, with which its batch may leave. -/
def drop (limiter : Limiter) (id : Nat) : Except Fault Limiter :=
  let closed := limiter.closeGate id
  if (limiter.gate? id).any Gate.leavesWithGate then closed.leave id else .ok closed

def inUse (limiter : Limiter) : List Gate := limiter.gates.filter fun gate => !gate.dropped

/-- The numbers and shares of the registered gates, in join order. -/
def shares (limiter : Limiter) : List (Nat × UInt64) :=
  limiter.registered.map fun gate => (gate.id, gate.semaphore.capacity)

end Limiter

end ModCatalog
