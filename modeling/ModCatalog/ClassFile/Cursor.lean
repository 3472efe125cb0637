import ModCatalog.ClassFile.Defect

/-!
# Reading class files

A cursor over the bytes of a class file and the readers of its big-endian words.  A reader that
fails says where it stood, and takes no byte of what it could not read in full.
-/

namespace ModCatalog.ClassFile

/-- A place in a sequence of bytes: what remains, and how much was read before. -/
structure Cursor where
  rest : List UInt8
  position : Nat
deriving DecidableEq, Repr

/-- The cursor in front of all bytes. -/
def Cursor.start (bytes : List UInt8) : Cursor := ⟨bytes, 0⟩

def Cursor.remaining (cursor : Cursor) : Nat := cursor.rest.length

/-- A reader moves a cursor and gives a value or a defect. -/
abbrev Reading (α : Type) := ExceptT Defect (StateM Cursor) α

namespace Reading

def runAt {α : Type} (reading : Reading α) (cursor : Cursor) : Except Defect α × Cursor :=
  reading.run.run cursor

/-- The value that a reader gives for a sequence of bytes; bytes may remain. -/
def runOn {α : Type} (reading : Reading α) (bytes : List UInt8) : Except Defect α :=
  (reading.runAt (Cursor.start bytes)).1

def bytes (count : Nat) : Reading (List UInt8) :=
  ExceptT.mk fun cursor =>
    if (cursor.rest.take count).length = count then
      (.ok (cursor.rest.take count), ⟨cursor.rest.drop count, cursor.position + count⟩)
    else (.error (.endOfData count cursor.position cursor.remaining), cursor)

/-- Pass over `count` bytes. -/
def skip (count : Nat) : Reading Unit := do
  let _ ← bytes count

def position : Reading Nat := return (← get).position

/-- Whether no bytes remain. -/
def atEnd : Reading Bool := return (← get).rest.isEmpty

/-- The number written by bytes, most significant first. -/
def bigEndian (bytes : List UInt8) : Nat := bytes.foldl (fun n b => n * 256 + b.toNat) 0

/-- An unsigned byte. -/
def u1 : Reading UInt8 := return UInt8.ofNat (bigEndian (← bytes 1))

/-- An unsigned word of two bytes. -/
def u2 : Reading UInt16 := return UInt16.ofNat (bigEndian (← bytes 2))

/-- An unsigned word of four bytes. -/
def u4 : Reading UInt32 := return UInt32.ofNat (bigEndian (← bytes 4))

/-- A signed word of four bytes. -/
def i4 : Reading Int32 := return (← u4).toInt32

/-- An unsigned word of eight bytes, read as two halves. -/
def u8 : Reading UInt64 := do
  let high ← u4
  let low ← u4
  return UInt64.ofNat (high.toNat <<< 32 + low.toNat)

/-- A signed word of eight bytes. -/
def i8 : Reading Int64 := return (← u8).toInt64

/-- As many bytes as the word of four bytes in front of them says. -/
def sizedBlock : Reading (List UInt8) := do
  bytes (← u4).toNat

/-- `count` values, one after another. -/
def many {α : Type} : Nat → Reading α → Reading (List α)
  | 0, _ => return []
  | count + 1, reading => do
      let first ← reading
      let others ← many count reading
      return first :: others

/-- As many values as the word of two bytes in front of them says. -/
def counted {α : Type} (reading : Reading α) : Reading (List α) := do
  many (← u2).toNat reading

/-- Change a state by `count` values, one after another. -/
def fold {σ : Type} (reading : σ → Reading σ) : Nat → σ → Reading σ
  | 0, state => return state
  | count + 1, state => do fold reading count (← reading state)

/-- Change a state by as many values as the word of two bytes in front of them says. -/
def foldCounted {σ : Type} (reading : σ → Reading σ) (state : σ) : Reading σ := do
  fold reading (← u2).toNat state

@[simp] theorem runAt_pure {α : Type} (value : α) (cursor : Cursor) :
    runAt (pure value) cursor = (.ok value, cursor) := rfl

@[simp] theorem runAt_throw {α : Type} (defect : Defect) (cursor : Cursor) :
    runAt (throw defect : Reading α) cursor = (.error defect, cursor) := rfl

@[simp] theorem runAt_ofExcept {α : Type} (value : Except Defect α) (cursor : Cursor) :
    runAt (ofExcept value) cursor = (value, cursor) := by
  cases value <;> rfl

theorem runAt_bind {α β : Type} (reading : Reading α) (next : α → Reading β) (cursor : Cursor) :
    runAt (reading >>= next) cursor =
      match runAt reading cursor with
      | (.ok value, after) => runAt (next value) after
      | (.error defect, after) => (.error defect, after) := by
  unfold runAt
  simp only [ExceptT.run_bind, StateT.run_bind]
  generalize reading.run.run cursor = result
  obtain ⟨value, after⟩ := result
  cases value <;> rfl

theorem runAt_bytes (count : Nat) (cursor : Cursor) :
    runAt (bytes count) cursor =
      if count ≤ cursor.remaining then
        (.ok (cursor.rest.take count), ⟨cursor.rest.drop count, cursor.position + count⟩)
      else (.error (.endOfData count cursor.position cursor.remaining), cursor) := by
  have enough : (cursor.rest.take count).length = count ↔ count ≤ cursor.remaining := by
    rw [List.length_take, Cursor.remaining]
    omega
  show (if (cursor.rest.take count).length = count then _ else _) = _
  by_cases h : count ≤ cursor.remaining
  · rw [if_pos h, if_pos (enough.2 h)]
  · rw [if_neg h, if_neg (mt enough.1 h)]

/-- Reading exactly what stands in front. -/
theorem runAt_bytes_append (front rest : List UInt8) (position : Nat) :
    runAt (bytes front.length) ⟨front ++ rest, position⟩ =
      (.ok front, ⟨rest, position + front.length⟩) := by
  rw [runAt_bytes, if_pos (by simp [Cursor.remaining])]
  simp

end Reading

end ModCatalog.ClassFile
