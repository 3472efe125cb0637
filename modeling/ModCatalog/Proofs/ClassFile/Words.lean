import Mathlib.Algebra.Group.Nat.Defs
import ModCatalog.ClassFile.Cursor

/-!
# Written words

The words of a class file as bytes, most significant first.  Every reader of a word gives back what
was written, and stands right behind it.
-/

namespace ModCatalog.ClassFile

namespace Writing

/-- The bytes of a number that fits in `width` of them, most significant first. -/
def bigEndian : Nat → Nat → List UInt8
  | 0, _ => []
  | width + 1, n => bigEndian width (n / 256) ++ [UInt8.ofNat n]

def u2 (word : UInt16) : List UInt8 := bigEndian 2 word.toNat

def u4 (word : UInt32) : List UInt8 := bigEndian 4 word.toNat

def i4 (word : Int32) : List UInt8 := u4 word.toUInt32

def u8 (word : UInt64) : List UInt8 := bigEndian 8 word.toNat

def i8 (word : Int64) : List UInt8 := u8 word.toUInt64

/-- Content behind its length. -/
def block (content : List UInt8) : List UInt8 := u4 (UInt32.ofNat content.length) ++ content

/-- Items behind their number. -/
def counted {α : Type} (write : α → List UInt8) (items : List α) : List UInt8 :=
  u2 (UInt16.ofNat items.length) ++ items.flatMap write

@[simp] theorem length_bigEndian (width n : Nat) : (bigEndian width n).length = width := by
  induction width generalizing n with
  | zero => rfl
  | succ width ih => simp [bigEndian, ih]

theorem bigEndian_add (front back n : Nat) :
    bigEndian (front + back) n = bigEndian front (n / 256 ^ back) ++ bigEndian back n := by
  induction back generalizing n with
  | zero => simp [bigEndian]
  | succ back ih =>
      have hsplit : n / 256 / 256 ^ back = n / 256 ^ (back + 1) := by
        rw [Nat.div_div_eq_div_mul, Nat.pow_succ']
      rw [← Nat.add_assoc, bigEndian, ih, hsplit, List.append_assoc, bigEndian]

@[simp] theorem length_u2 (word : UInt16) : (u2 word).length = 2 := length_bigEndian 2 _

@[simp] theorem length_u4 (word : UInt32) : (u4 word).length = 4 := length_bigEndian 4 _

@[simp] theorem length_i4 (word : Int32) : (i4 word).length = 4 := length_bigEndian 4 _

@[simp] theorem length_u8 (word : UInt64) : (u8 word).length = 8 := length_bigEndian 8 _

@[simp] theorem length_i8 (word : Int64) : (i8 word).length = 8 := length_bigEndian 8 _

end Writing

namespace Reading

theorem bigEndian_concat (front : List UInt8) (last : UInt8) :
    bigEndian (front ++ [last]) = bigEndian front * 256 + last.toNat := by
  simp [bigEndian]

theorem bigEndian_written (width n : Nat) :
    bigEndian (Writing.bigEndian width n) = n % 256 ^ width := by
  induction width generalizing n with
  | zero => simp [Writing.bigEndian, bigEndian, Nat.mod_one]
  | succ width ih =>
      have hlast : (UInt8.ofNat n).toNat = n % 256 := by simp
      have hsplit : n % 256 ^ (width + 1) = n % 256 + 256 * (n / 256 % 256 ^ width) := by
        rw [Nat.pow_succ', Nat.mod_mul]
      rw [Writing.bigEndian, bigEndian_concat, ih, hlast, hsplit]
      omega

@[simp] theorem runAt_position (cursor : Cursor) :
    runAt position cursor = (.ok cursor.position, cursor) := rfl

@[simp] theorem runAt_atEnd (cursor : Cursor) :
    runAt atEnd cursor = (.ok cursor.rest.isEmpty, cursor) := rfl

section Words

variable (rest : List UInt8) (position : Nat)

theorem runAt_bytes_of_length {count : Nat} {front : List UInt8} (h : front.length = count) :
    runAt (bytes count) ⟨front ++ rest, position⟩ = (.ok front, ⟨rest, position + count⟩) := by
  subst h
  exact runAt_bytes_append front rest position

theorem runAt_skip {count : Nat} {front : List UInt8} (h : front.length = count) :
    runAt (skip count) ⟨front ++ rest, position⟩ = (.ok (), ⟨rest, position + count⟩) := by
  unfold skip
  rw [runAt_bind, runAt_bytes_of_length rest position h]
  rfl

@[simp] theorem runAt_u1 (byte : UInt8) :
    runAt u1 ⟨byte :: rest, position⟩ = (.ok byte, ⟨rest, position + 1⟩) := by
  unfold u1
  have hone : [byte].length = 1 := rfl
  rw [runAt_bind, ← List.singleton_append, runAt_bytes_of_length rest position hone]
  simp [bigEndian]

@[simp] theorem runAt_u2 (word : UInt16) :
    runAt u2 ⟨Writing.u2 word ++ rest, position⟩ = (.ok word, ⟨rest, position + 2⟩) := by
  unfold u2
  rw [runAt_bind, runAt_bytes_of_length rest position (Writing.length_u2 word)]
  simp [Writing.u2, bigEndian_written, Nat.mod_eq_of_lt word.toNat_lt]

/-- The last four bytes of a number. -/
theorem runAt_u4_bigEndian (n : Nat) :
    runAt u4 ⟨Writing.bigEndian 4 n ++ rest, position⟩ =
      (.ok (UInt32.ofNat n), ⟨rest, position + 4⟩) := by
  unfold u4
  rw [runAt_bind, runAt_bytes_of_length rest position (Writing.length_bigEndian 4 n)]
  dsimp only
  rw [bigEndian_written, show 256 ^ 4 = 2 ^ 32 from rfl, UInt32.ofNat_mod_size]
  rfl

@[simp] theorem runAt_u4 (word : UInt32) :
    runAt u4 ⟨Writing.u4 word ++ rest, position⟩ = (.ok word, ⟨rest, position + 4⟩) := by
  rw [Writing.u4, runAt_u4_bigEndian, UInt32.ofNat_toNat]

@[simp] theorem runAt_i4 (word : Int32) :
    runAt i4 ⟨Writing.i4 word ++ rest, position⟩ = (.ok word, ⟨rest, position + 4⟩) := by
  unfold i4
  rw [runAt_bind, Writing.i4, runAt_u4]
  rfl

/-- Two halves of four bytes make a word of eight. -/
@[simp] theorem runAt_u8 (word : UInt64) :
    runAt u8 ⟨Writing.u8 word ++ rest, position⟩ = (.ok word, ⟨rest, position + 8⟩) := by
  have hword := word.toNat_lt
  have hhalves : (word.toNat / 256 ^ 4 % 2 ^ 32) <<< 32 + word.toNat % 2 ^ 32 = word.toNat := by
    rw [Nat.shiftLeft_eq]
    omega
  unfold u8
  rw [Writing.u8, Writing.bigEndian_add 4 4, List.append_assoc]
  simp only [runAt_bind, runAt_u4_bigEndian, runAt_pure, UInt32.toNat_ofNat', hhalves,
    UInt64.ofNat_toNat, Nat.add_assoc, Nat.reduceAdd]

@[simp] theorem runAt_i8 (word : Int64) :
    runAt i8 ⟨Writing.i8 word ++ rest, position⟩ = (.ok word, ⟨rest, position + 8⟩) := by
  unfold i8
  rw [runAt_bind, Writing.i8, runAt_u8]
  rfl

/-- Content that is written behind its length is read whole. -/
theorem runAt_sizedBlock {content : List UInt8} (hfits : content.length < 2 ^ 32) :
    runAt sizedBlock ⟨Writing.block content ++ rest, position⟩ =
      (.ok content, ⟨rest, position + (4 + content.length)⟩) := by
  unfold sizedBlock
  rw [Writing.block, List.append_assoc, runAt_bind, runAt_u4]
  dsimp only
  rw [UInt32.toNat_ofNat_of_lt' hfits, runAt_bytes_of_length rest _ rfl, Nat.add_assoc]

end Words

/-! ## What takes exactly its bytes -/

/-- Whether a reader takes exactly `bytes`, whatever follows them, and gives a value for them. -/
def Reads {α : Type} (reading : Reading α) (bytes : List UInt8) (value : α) : Prop :=
  ∀ rest position, runAt reading ⟨bytes ++ rest, position⟩ =
    (.ok value, ⟨rest, position + bytes.length⟩)

variable {α β : Type}

theorem reads_pure (value : α) : Reads (pure value) [] value := fun _ _ => rfl

theorem reads_ofExcept {result : Except Defect α} {value : α} (h : result = .ok value) :
    Reads (ofExcept result) [] value := by
  subst h
  exact reads_pure value

theorem reads_u1 (byte : UInt8) : Reads u1 [byte] byte :=
  fun rest position => runAt_u1 rest position byte

theorem reads_u2 (word : UInt16) : Reads u2 (Writing.u2 word) word := by
  intro rest position
  rw [runAt_u2, Writing.length_u2]

theorem reads_u4 (word : UInt32) : Reads u4 (Writing.u4 word) word := by
  intro rest position
  rw [runAt_u4, Writing.length_u4]

theorem reads_i4 (word : Int32) : Reads i4 (Writing.i4 word) word := by
  intro rest position
  rw [runAt_i4, Writing.length_i4]

theorem reads_u8 (word : UInt64) : Reads u8 (Writing.u8 word) word := by
  intro rest position
  rw [runAt_u8, Writing.length_u8]

theorem reads_i8 (word : Int64) : Reads i8 (Writing.i8 word) word := by
  intro rest position
  rw [runAt_i8, Writing.length_i8]

theorem reads_bytes {count : Nat} {content : List UInt8} (h : content.length = count) :
    Reads (bytes count) content content := by
  intro rest position
  rw [runAt_bytes_of_length rest position h, h]

theorem reads_skip {count : Nat} {content : List UInt8} (h : content.length = count) :
    Reads (skip count) content () := by
  intro rest position
  rw [runAt_skip rest position h, h]

theorem reads_sizedBlock {content : List UInt8} (hfits : content.length < 2 ^ 32) :
    Reads sizedBlock (Writing.block content) content := by
  intro rest position
  rw [runAt_sizedBlock rest position hfits, Writing.block, List.length_append, Writing.length_u4]

theorem Reads.bind {reading : Reading α} {next : α → Reading β} {front back : List UInt8} {value : α}
    {result : β} (h : Reads reading front value) (hnext : Reads (next value) back result) :
    Reads (reading >>= next) (front ++ back) result := by
  intro rest position
  rw [runAt_bind, List.append_assoc, h]
  dsimp only
  rw [hnext, List.length_append, Nat.add_assoc]

/-- A last step that takes no bytes. -/
theorem Reads.map {reading : Reading α} {bytes : List UInt8} {value : α}
    (h : Reads reading bytes value) (change : α → β) :
    Reads (do return change (← reading)) bytes (change value) := by
  have hboth : Reads (do return change (← reading)) (bytes ++ []) (change value) :=
    h.bind (reads_pure (change value))
  rwa [List.append_nil] at hboth

/-- An index and what is found under it. -/
theorem reads_lookup {find : UInt16 → Except Defect α} {index : UInt16} {value : α}
    {next : α → Reading β} {bytes : List UInt8} {result : β} (hfind : find index = .ok value)
    (h : Reads (next value) bytes result) :
    Reads (do next (← ofExcept (find (← u2)))) (Writing.u2 index ++ bytes) result :=
  (reads_u2 index).bind ((reads_ofExcept hfind).bind h)

theorem reads_many {reading : Reading β} {write : α → List UInt8} {read : α → β} {items : List α}
    (h : ∀ item ∈ items, Reads reading (write item) (read item)) :
    Reads (many items.length reading) (items.flatMap write) (items.map read) := by
  induction items with
  | nil => exact reads_pure []
  | cons item rest ih =>
      obtain ⟨hfirst, hrest⟩ := List.forall_mem_cons.mp h
      exact hfirst.bind ((ih hrest).map _)

theorem reads_counted {reading : Reading β} {write : α → List UInt8} {read : α → β} {items : List α}
    (hcount : items.length < 2 ^ 16)
    (h : ∀ item ∈ items, Reads reading (write item) (read item)) :
    Reads (counted reading) (Writing.u2 (UInt16.ofNat items.length) ++ items.flatMap write)
      (items.map read) := by
  refine (reads_u2 _).bind ?_
  rw [UInt16.toNat_ofNat_of_lt' hcount]
  exact reads_many h

end Reading

end ModCatalog.ClassFile
