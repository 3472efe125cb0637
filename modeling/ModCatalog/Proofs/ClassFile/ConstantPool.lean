import ModCatalog.ClassFile.Pool
import ModCatalog.Proofs.ClassFile.ModifiedUtf8
import ModCatalog.Proofs.ClassFile.Words

/-!
# Written constant pools

The constants of a class file as bytes, each behind the tag of its kind.  Reading a pool gives back
the constants, each under the number of places in front of it, and stands right behind the last one.
A pool whose number of places ends inside a wide constant is rejected.
-/

namespace ModCatalog

namespace Text.Utf16

/-- The code units of a character. -/
def encodeChar (c : Char) : List UInt16 :=
  if c.toNat < 0x10000 then [UInt16.ofNat c.toNat]
  else [UInt16.ofNat (0xD800 + (c.toNat - 0x10000) / 0x400),
    UInt16.ofNat (0xDC00 + (c.toNat - 0x10000) % 0x400)]

/-- The code units of a text. -/
def encode (text : List Char) : List UInt16 := text.flatMap encodeChar

theorem reads_encode (text : List Char) : Reads ((encode text).map UInt16.toNat) text := by
  induction text with
  | nil => exact .nil
  | cons c rest ih =>
      have hvalid : c.toNat < 0x110000 := by
        have hrange := c.valid
        simp only [UInt32.isValidChar, Nat.isValidChar] at hrange
        simp only [Char.toNat]
        omega
      rw [encode, List.flatMap_cons, List.map_append, encodeChar]
      split
      · next hsmall =>
          refine .unit c ?_ ih
          exact UInt16.toNat_ofNat_of_lt' hsmall
      · next hlarge =>
          have hsize : UInt16.size = 0x10000 := rfl
          refine .pair c (by omega) ?_ ?_ ih
          · exact UInt16.toNat_ofNat_of_lt' (by omega)
          · exact UInt16.toNat_ofNat_of_lt' (by omega)

/-- Decoding undoes encoding. -/
theorem decodeLossy_encode (text : List Char) :
    decodeLossy ((encode text).map UInt16.toNat) = text :=
  (reads_encode text).eq_decodeLossy.symm

end Text.Utf16

namespace ClassFile

/-! ## What is written -/

/-- A constant as a class file holds it.  A text is written as its code units; the units that are no
text, such as half of a surrogate pair, can be written too. -/
inductive WrittenConstant
  | utf8 (units : List UInt16) (fits : (ModifiedUtf8.write units).length < 2 ^ 16)
  | integer (value : Int32)
  | float (bits : UInt32)
  | long (value : Int64)
  | double (bits : UInt64)
  | classInfo (name : UInt16)
  | string (text : UInt16)
  | fieldRef (owner nameAndType : UInt16)
  | methodRef (owner nameAndType : UInt16)
  | interfaceMethodRef (owner nameAndType : UInt16)
  | nameAndType (name descriptor : UInt16)
  | methodHandle (kind : UInt8) (reference : UInt16)
  | methodType (descriptor : UInt16)
  | dynamic (bootstrap nameAndType : UInt16)
  | invokeDynamic (bootstrap nameAndType : UInt16)
  | moduleInfo (name : UInt16)
  | packageInfo (name : UInt16)

/-- The places that a constant takes in a pool. -/
def Constant.places (constant : Constant) : List Constant :=
  if constant.isWide then [constant, .unusable] else [constant]

theorem Constant.length_places (constant : Constant) :
    constant.places.length = if constant.isWide then 2 else 1 := by
  unfold places
  split <;> rfl

theorem Constant.length_places_pos (constant : Constant) : 0 < constant.places.length := by
  rw [length_places]
  split <;> omega

namespace WrittenConstant

open Writing

/-- What a written constant stands for. -/
def constant : WrittenConstant → Constant
  | utf8 units _ => .utf8 (String.ofList (Text.Utf16.decodeLossy (units.map UInt16.toNat)))
  | integer value => .integer value
  | float bits => .float bits
  | long value => .long value
  | double bits => .double bits
  | classInfo name => .classInfo name
  | string text => .string text
  | fieldRef owner member => .fieldRef owner member
  | methodRef owner member => .methodRef owner member
  | interfaceMethodRef owner member => .interfaceMethodRef owner member
  | nameAndType name descriptor => .nameAndType name descriptor
  | methodHandle kind reference => .methodHandle kind reference
  | methodType descriptor => .methodType descriptor
  | dynamic bootstrap member => .dynamic bootstrap member
  | invokeDynamic bootstrap member => .invokeDynamic bootstrap member
  | moduleInfo name => .moduleInfo name
  | packageInfo name => .packageInfo name

def tag : WrittenConstant → UInt8
  | utf8 _ _ => 1
  | integer _ => 3
  | float _ => 4
  | long _ => 5
  | double _ => 6
  | classInfo _ => 7
  | string _ => 8
  | fieldRef _ _ => 9
  | methodRef _ _ => 10
  | interfaceMethodRef _ _ => 11
  | nameAndType _ _ => 12
  | methodHandle _ _ => 15
  | methodType _ => 16
  | dynamic _ _ => 17
  | invokeDynamic _ _ => 18
  | moduleInfo _ => 19
  | packageInfo _ => 20

/-- The bytes behind the tag. -/
def body : WrittenConstant → List UInt8
  | utf8 units _ =>
      u2 (UInt16.ofNat (ModifiedUtf8.write units).length) ++ ModifiedUtf8.write units
  | integer value => i4 value
  | float bits => u4 bits
  | long value => i8 value
  | double bits => u8 bits
  | classInfo index | string index | methodType index | moduleInfo index | packageInfo index =>
      u2 index
  | fieldRef first second | methodRef first second | interfaceMethodRef first second
  | nameAndType first second | dynamic first second | invokeDynamic first second =>
      u2 first ++ u2 second
  | methodHandle kind reference => kind :: u2 reference

def bytes (constant : WrittenConstant) : List UInt8 := constant.tag :: constant.body

/-- A text that takes no more bytes than a constant can. -/
def ofText (text : String)
    (fits : (ModifiedUtf8.write (Text.Utf16.encode text.toList)).length < 2 ^ 16) :
    WrittenConstant :=
  .utf8 (Text.Utf16.encode text.toList) fits

theorem constant_ofText (text : String)
    (fits : (ModifiedUtf8.write (Text.Utf16.encode text.toList)).length < 2 ^ 16) :
    (ofText text fits).constant = .utf8 text := by
  rw [ofText, constant, Text.Utf16.decodeLossy_encode, String.ofList_toList]

/-- A text as a constant; a text that takes more bytes than a constant can is left empty. -/
def short (text : String) : WrittenConstant :=
  if fits : (ModifiedUtf8.write (Text.Utf16.encode text.toList)).length < 2 ^ 16 then
    ofText text fits
  else utf8 [] (by decide)

/-- The places that constants take in a pool, behind the first one. -/
def places (constants : List WrittenConstant) : List Constant :=
  constants.flatMap fun constant => constant.constant.places

/-- The number of places that constants take. -/
def width (constants : List WrittenConstant) : Nat := (places constants).length

/-- The pool that constants make up. -/
def pool (constants : List WrittenConstant) : Pool := ⟨#[.unusable] ++ (places constants).toArray⟩

/-- The bytes of a pool that says how many places it has. -/
def poolBytes (count : Nat) (constants : List WrittenConstant) : List UInt8 :=
  u2 (UInt16.ofNat count) ++ constants.flatMap bytes

theorem width_cons (constant : WrittenConstant) (rest : List WrittenConstant) :
    width (constant :: rest) = constant.constant.places.length + width rest := by
  simp [width, places]

theorem width_append (front back : List WrittenConstant) :
    width (front ++ back) = width front + width back := by
  simp [width, places]

theorem length_le_width (constants : List WrittenConstant) :
    constants.length ≤ width constants := by
  induction constants with
  | nil => exact Nat.le_refl 0
  | cons constant rest ih =>
      have hpos := constant.constant.length_places_pos
      rw [width_cons, List.length_cons]
      omega

theorem size_pool (constants : List WrittenConstant) :
    (pool constants).entries.size = width constants + 1 := by
  simp [pool, width, Nat.add_comm]

/-! ## What is read -/

open Reading

theorem reads_one (kind : UInt16 → Constant) (index : UInt16) :
    Reads (do return kind (← u2)) (u2 index) (kind index) :=
  (reads_u2 index).map kind

theorem reads_two (kind : UInt16 → UInt16 → Constant) (first second : UInt16) :
    Reads (do return kind (← u2) (← u2)) (u2 first ++ u2 second) (kind first second) :=
  (reads_u2 first).bind (reads_one (kind first) second)

theorem reads_utf8 (units : List UInt16) (fits : (ModifiedUtf8.write units).length < 2 ^ 16)
    (entry : Nat) :
    Reads (Pool.readConstant 1 entry) (utf8 units fits).body (utf8 units fits).constant := by
  have hlength : (ModifiedUtf8.write units).length =
      (UInt16.ofNat (ModifiedUtf8.write units).length).toNat :=
    (UInt16.toNat_ofNat_of_lt' fits).symm
  have hdecode := ModifiedUtf8.decode_of_units (ModifiedUtf8.units_write units)
  have htext : Reads (do return .utf8 (← ofExcept (ModifiedUtf8.decode (← Reading.bytes _))))
      (ModifiedUtf8.write units ++ []) (utf8 units fits).constant :=
    (reads_bytes hlength).bind ((reads_ofExcept hdecode).map Constant.utf8)
  rw [List.append_nil] at htext
  exact (reads_u2 _).bind htext

/-- A constant is read back behind its tag. -/
theorem reads_readConstant (written : WrittenConstant) (entry : Nat) :
    Reads (Pool.readConstant written.tag entry) written.body written.constant := by
  cases written with
  | utf8 units fits => exact reads_utf8 units fits entry
  | integer value => exact (reads_i4 value).map _
  | float bits => exact (reads_u4 bits).map _
  | long value => exact (reads_i8 value).map _
  | double bits => exact (reads_u8 bits).map _
  | classInfo index => exact reads_one .classInfo index
  | string index => exact reads_one .string index
  | fieldRef first second => exact reads_two .fieldRef first second
  | methodRef first second => exact reads_two .methodRef first second
  | interfaceMethodRef first second => exact reads_two .interfaceMethodRef first second
  | nameAndType first second => exact reads_two .nameAndType first second
  | methodHandle kind reference =>
      exact (reads_u1 kind).bind (reads_one (.methodHandle kind) reference)
  | methodType index => exact reads_one .methodType index
  | dynamic first second => exact reads_two .dynamic first second
  | invokeDynamic first second => exact reads_two .invokeDynamic first second
  | moduleInfo index => exact reads_one .moduleInfo index
  | packageInfo index => exact reads_one .packageInfo index

/-! ## Whole pools -/

/-- Whether constants are what a pool of `count` places takes behind `size` of them: it is not full
before any of them, and full after the last. -/
def Fill (count : Nat) : Nat → List WrittenConstant → Prop
  | size, [] => count ≤ size
  | size, constant :: rest => size < count ∧ Fill count (size + constant.constant.places.length) rest

theorem fill_of_width {count size : Nat} {constants : List WrittenConstant}
    (h : size + width constants = count) : Fill count size constants := by
  induction constants generalizing size with
  | nil => exact Nat.le_of_eq h.symm
  | cons constant rest ih =>
      have hpos := constant.constant.length_places_pos
      rw [width_cons] at h
      exact ⟨by omega, ih (by omega)⟩

/-- The last constant may take a place more than there are. -/
theorem fill_concat {count size : Nat} {front : List WrittenConstant} (last : WrittenConstant)
    (hbefore : size + width front < count)
    (hafter : count ≤ size + width front + last.constant.places.length) :
    Fill count size (front ++ [last]) := by
  induction front generalizing size with
  | nil => exact ⟨hbefore, hafter⟩
  | cons constant rest ih =>
      rw [width_cons] at hbefore hafter
      exact ⟨by omega, ih (by omega) (by omega)⟩

theorem readEntries_of_full {count bound : Nat} {entries : Array Constant}
    (h : count ≤ entries.size) : Pool.readEntries count bound entries = pure entries := by
  cases bound with
  | zero => rfl
  | succ bound =>
      rw [Pool.readEntries, if_neg (by omega)]

theorem push_places (entries : Array Constant) (constant : Constant) :
    (if constant.isWide then (entries.push constant).push .unusable else entries.push constant) =
      entries ++ constant.places.toArray := by
  unfold Constant.places
  split <;> rfl

/-- The loop pushes the places of one constant after another until the pool is full. -/
theorem reads_readEntries {count bound : Nat} {constants : List WrittenConstant}
    {entries : Array Constant} (hfill : Fill count entries.size constants)
    (hbound : constants.length ≤ bound) :
    Reads (Pool.readEntries count bound entries) (constants.flatMap bytes)
      (entries ++ (places constants).toArray) := by
  induction constants generalizing bound entries with
  | nil =>
      have hnone : entries ++ (places []).toArray = entries := by simp [places]
      rw [readEntries_of_full hfill, hnone]
      exact reads_pure entries
  | cons constant rest ih =>
      cases bound with
      | zero => simp at hbound
      | succ bound =>
          obtain ⟨hroom, hrest⟩ := hfill
          have hsize : entries.size + constant.constant.places.length =
              (entries ++ constant.constant.places.toArray).size := by simp
          rw [hsize] at hrest
          have hplaces : entries ++ (places (constant :: rest)).toArray =
              entries ++ constant.constant.places.toArray ++ (places rest).toArray := by
            simp [places]
          have hloop := ih hrest (Nat.le_of_succ_le_succ hbound)
          rw [Pool.readEntries, if_pos hroom, List.flatMap_cons, hplaces]
          refine (reads_u1 constant.tag).bind ((reads_readConstant constant _).bind ?_)
          dsimp only
          rw [push_places]
          exact hloop

/-- What a pool holds once its places are full, or why it is rejected. -/
theorem runAt_read {count : Nat} {constants : List WrittenConstant} (hcount : count < 2 ^ 16)
    (hfill : Fill count 1 constants) (hlength : constants.length ≤ count) (rest : List UInt8)
    (position : Nat) :
    runAt Pool.read ⟨poolBytes count constants ++ rest, position⟩ =
      (if width constants + 1 = max count 1 then .ok (pool constants) else .error .halfWideEntry,
        ⟨rest, position + (poolBytes count constants).length⟩) := by
  have hentries : Reads (Pool.readEntries count count #[.unusable]) (constants.flatMap bytes)
      (#[.unusable] ++ (places constants).toArray) := reads_readEntries hfill hlength
  have hsize := size_pool constants
  unfold pool at hsize
  unfold Pool.read poolBytes
  rw [List.append_assoc, runAt_bind, runAt_u2]
  dsimp only
  rw [UInt16.toNat_ofNat_of_lt' hcount, runAt_bind, hentries]
  dsimp only
  rw [hsize, List.length_append, Writing.length_u2, Nat.add_assoc]
  by_cases hfull : width constants + 1 = max count 1
  · simp [hfull, pool]
  · simp [hfull]

/-- A pool is read back. -/
theorem reads_read {constants : List WrittenConstant} (hfits : width constants + 1 < 2 ^ 16) :
    Reads Pool.read (poolBytes (width constants + 1) constants) (pool constants) := by
  intro rest position
  have hlength := length_le_width constants
  have hmax : width constants + 1 = max (width constants + 1) 1 := by omega
  rw [runAt_read hfits (fill_of_width (Nat.add_comm 1 _)) (by omega), if_pos hmax]

/-! ## Looking up -/

theorem constant_ne_unusable (written : WrittenConstant) : written.constant ≠ .unusable := by
  cases written <;> exact nofun

theorem places_split (front : List WrittenConstant) (written : WrittenConstant)
    (back : List WrittenConstant) :
    places (front ++ written :: back) =
      places front ++ (written.constant.places ++ places back) := by
  simp [places]

end WrittenConstant

namespace Pool

open Reading WrittenConstant

theorem get_of_getElem? {pool : Pool} {index : UInt16} {constant : Constant}
    (h : pool.entries[index.toNat]? = some constant) (husable : constant ≠ .unusable) :
    pool.get index = .ok constant := by
  unfold get
  rw [h]
  cases constant with
  | unusable => exact absurd rfl husable
  | _ => rfl

theorem get_of_unusable {pool : Pool} {index : UInt16}
    (h : ∀ constant ∈ pool.entries[index.toNat]?, constant = .unusable) :
    pool.get index = .error (.poolIndex index) := by
  unfold get
  cases hentry : pool.entries[index.toNat]? with
  | none => rfl
  | some constant =>
      rw [h constant hentry]

/-- What stands in a pool behind its first place. -/
theorem getElem?_pool (constants : List WrittenConstant) (place : Nat) :
    (pool constants).entries[place + 1]? = (places constants)[place]? := by
  simp [pool]

variable {constants front back : List WrittenConstant} {written : WrittenConstant} {index : UInt16}

/-- A constant stands behind the places of those in front of it. -/
theorem get_start (hsplit : constants = front ++ written :: back)
    (hindex : index.toNat = width front + 1) :
    (pool constants).get index = .ok written.constant := by
  have hfirst : written.constant.places[0]? = some written.constant := by
    unfold Constant.places
    split <;> rfl
  refine get_of_getElem? ?_ written.constant_ne_unusable
  rw [hindex, getElem?_pool, hsplit, places_split, width,
    List.getElem?_append_right (Nat.le_refl _), Nat.sub_self,
    List.getElem?_append_left written.constant.length_places_pos, hfirst]

/-- Nothing can be looked up between a wide constant and the one behind it. -/
theorem get_upper (hsplit : constants = front ++ written :: back)
    (hindex : index.toNat = width front + 2) (hwide : written.constant.isWide) :
    (pool constants).get index = .error (.poolIndex index) := by
  have hplaces : written.constant.places = [written.constant, .unusable] := if_pos hwide
  have hentry : (pool constants).entries[index.toNat]? = some .unusable := by
    rw [hindex, getElem?_pool, hsplit, places_split, width,
      List.getElem?_append_right (Nat.le_add_right _ 1), Nat.add_sub_cancel_left, hplaces]
    rfl
  refine get_of_unusable fun constant hconstant => ?_
  rw [hentry] at hconstant
  exact (Option.some.inj hconstant).symm

theorem get_first (constants : List WrittenConstant) :
    (pool constants).get 0 = .error (.poolIndex 0) :=
  get_of_unusable fun constant hconstant => by
    have hentry : (pool constants).entries[0]? = some .unusable := by simp [pool]
    exact Option.some.inj (hconstant.symm.trans hentry)

theorem get_behind (hindex : width constants < index.toNat) :
    (pool constants).get index = .error (.poolIndex index) := by
  refine get_of_unusable fun constant hconstant => ?_
  rw [Array.getElem?_eq_none (by rw [size_pool]; omega)] at hconstant
  cases hconstant

/-- A pool that has room for one half of its last constant. -/
theorem read_cut (front : List WrittenConstant) {last : WrittenConstant}
    (hwide : last.constant.isWide) (hcount : width front + 2 < 2 ^ 16) (rest : List UInt8)
    (position : Nat) :
    (runAt read ⟨poolBytes (width front + 2) (front ++ [last]) ++ rest, position⟩).1 =
      .error .halfWideEntry := by
  have htwo : last.constant.places.length = 2 := by
    rw [Constant.length_places, if_pos hwide]
  have hwidth : width (front ++ [last]) = width front + 2 := by
    rw [width_append, width_cons, htwo]
    rfl
  have hlength := length_le_width front
  have hfill : Fill (width front + 2) 1 (front ++ [last]) :=
    fill_concat last (by omega) (by omega)
  have hcut : ¬ width front + 2 + 1 = max (width front + 2) 1 := by omega
  rw [runAt_read hcount hfill (by simp; omega), hwidth, if_neg hcut]

/-- Reading a pool undoes writing it, whatever follows: the reader stands right behind the last
constant, every constant is found under the number of places in front of it, and nothing is found
under the first index, in the upper half of a wide constant, and behind the last place.  A pool whose
number of places cuts a wide constant is rejected.  Every text is written that takes less than
`2 ^ 16` bytes. -/
theorem read_written (constants : List WrittenConstant) (hfits : width constants + 1 < 2 ^ 16) :
    Reads read (poolBytes (width constants + 1) constants) (pool constants) ∧
      (∀ front written back index, constants = front ++ written :: back →
        index.toNat = width front + 1 → (pool constants).get index = .ok written.constant) ∧
      (∀ front written back index, constants = front ++ written :: back →
        written.constant.isWide → index.toNat = width front + 2 →
        (pool constants).get index = .error (.poolIndex index)) ∧
      (∀ index, index = 0 ∨ width constants < index.toNat →
        (pool constants).get index = .error (.poolIndex index)) ∧
      (∀ front last rest position, last.constant.isWide → width front + 2 < 2 ^ 16 →
        (runAt read ⟨poolBytes (width front + 2) (front ++ [last]) ++ rest, position⟩).1 =
          .error .halfWideEntry) ∧
      ∀ text fits, (ofText text fits).constant = .utf8 text := by
  refine ⟨reads_read hfits, fun _ _ _ _ hsplit hindex => get_start hsplit hindex,
    fun _ _ _ _ hsplit hwide hindex => get_upper hsplit hindex hwide, ?_,
    fun front _ rest position hwide hcount => read_cut front hwide hcount rest position,
    constant_ofText⟩
  rintro index (rfl | hindex)
  · exact get_first constants
  · exact get_behind hindex

/-- A text between two wide constants. -/
def sampleConstants : List WrittenConstant :=
  [.long 7, .ofText "x" (by decide), .double 0]

theorem read_sampleConstants :
    Reads read [0, 6, 5, 0, 0, 0, 0, 0, 0, 0, 7, 1, 0, 1, 0x78, 6, 0, 0, 0, 0, 0, 0, 0, 0]
        (pool sampleConstants) ∧
      (pool sampleConstants).get 3 = .ok (.utf8 "x") ∧
      (pool sampleConstants).get 2 = .error (.poolIndex 2) ∧
      (pool sampleConstants).get 6 = .error (.poolIndex 6) ∧
      runOn read [0, 5, 5, 0, 0, 0, 0, 0, 0, 0, 7, 1, 0, 1, 0x78, 6, 0, 0, 0, 0, 0, 0, 0, 0, 9] =
        .error .halfWideEntry := by
  obtain ⟨hreads, hstart, hupper, hnone, hcut, htext⟩ := read_written sampleConstants (by decide)
  refine ⟨hreads, ?_, ?_, ?_, ?_⟩
  · exact (hstart [.long 7] _ [.double 0] 3 rfl rfl).trans (congrArg Except.ok (htext "x" _))
  · exact hupper [] (.long 7) _ 2 rfl rfl rfl
  · exact hnone 6 (.inr (by decide))
  · have hbytes : [0, 5, 5, 0, 0, 0, 0, 0, 0, 0, 7, 1, 0, 1, 0x78, 6, 0, 0, 0, 0, 0, 0, 0, 0, 9] =
        poolBytes 5 ([.long 7, .ofText "x" (by decide)] ++ [.double 0]) ++ [9] := rfl
    rw [runOn, Cursor.start, hbytes]
    exact hcut [.long 7, .ofText "x" (by decide)] (.double 0) [9] 0 rfl (by decide)

end Pool

end ClassFile

end ModCatalog
