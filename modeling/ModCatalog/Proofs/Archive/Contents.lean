import Mathlib.Data.List.Forall2
import ModCatalog.Artifact.Jar

/-!
# Contents of archives

What an entry holds depends on its own bytes and on what the directory says of it.  The directory is
read alike whatever stands in front of it, and the checksum is the same whether it is taken from the
table or bit by bit.
-/

namespace ModCatalog.Archive

/-! ## Bytes -/

theorem foldl_loop_eq {α : Type} (step : α → UInt8 → α) (bytes : ByteArray) {left start : Nat}
    (h : left + start = bytes.size) (init : α) :
    ByteArray.foldlM.loop (m := Id) step bytes bytes.size (Nat.le_refl _) left start init =
      (bytes.data.toList.drop start).foldl step init := by
  induction left generalizing start init with
  | zero =>
      have hend : bytes.data.toList.length ≤ start := by
        rw [Array.length_toList, ByteArray.size_data]
        omega
      rw [List.drop_eq_nil_of_le hend]
      unfold ByteArray.foldlM.loop
      split <;> rfl
  | succ left ih =>
      have hlt : start < bytes.size := by omega
      have hlist : start < bytes.data.toList.length := by
        rwa [Array.length_toList, ByteArray.size_data]
      unfold ByteArray.foldlM.loop
      rw [dif_pos hlt, List.drop_eq_getElem_cons hlist, List.foldl_cons]
      exact ih (by omega) _

theorem foldl_eq {α : Type} (step : α → UInt8 → α) (init : α) (bytes : ByteArray) :
    bytes.foldl step init = bytes.data.toList.foldl step init := by
  unfold ByteArray.foldl ByteArray.foldlM
  rw [dif_pos (Nat.le_refl _)]
  exact foldl_loop_eq step bytes (by omega) init

theorem extract_toArray (bytes : List UInt8) (start stop : Nat) :
    ByteArray.extract ⟨bytes.toArray⟩ start stop = ⟨(bytes.extract start stop).toArray⟩ := by
  apply ByteArray.ext
  simp

/-! ## Directories

An archive is read from its end.  What is in front of its directory counts only by its length, so
that a directory can be read on its own.
-/

theorem size_append (front rest : List UInt8) :
    ByteArray.size ⟨(front ++ rest).toArray⟩ = front.length + ByteArray.size ⟨rest.toArray⟩ := by
  simp [ByteArray.size]

theorem number?_append (front rest : List UInt8) (offset width : Nat) :
    number? ⟨(front ++ rest).toArray⟩ (front.length + offset) width =
      number? ⟨rest.toArray⟩ offset width := by
  induction width generalizing offset with
  | zero => rfl
  | succ width ih =>
      have hget : ByteArray.get! ⟨(front ++ rest).toArray⟩ (front.length + offset) =
          ByteArray.get! ⟨rest.toArray⟩ offset := by
        simp [ByteArray.get!, List.getElem?_append_right]
      have hsize : front.length + offset < ByteArray.size ⟨(front ++ rest).toArray⟩ ↔
          offset < ByteArray.size ⟨rest.toArray⟩ := by
        rw [size_append]
        exact Nat.add_lt_add_iff_left
      unfold number?
      rw [hget, Nat.add_assoc, ih]
      simp only [hsize]

theorem slice?_append (front rest : List UInt8) (offset length : Nat) :
    slice? ⟨(front ++ rest).toArray⟩ (front.length + offset) length =
      slice? ⟨rest.toArray⟩ offset length := by
  have hsize : front.length + offset + length ≤ ByteArray.size ⟨(front ++ rest).toArray⟩ ↔
      offset + length ≤ ByteArray.size ⟨rest.toArray⟩ := by
    rw [size_append, Nat.add_assoc]
    exact Nat.add_le_add_iff_left
  have hslice : (front ++ rest).extract (front.length + offset) (front.length + offset + length) =
      rest.extract offset (offset + length) := by
    simp [List.extract]
  unfold slice?
  rw [extract_toArray, extract_toArray, hslice]
  simp only [hsize]

/-- Two readings that begin alike differ by a function if what follows does. -/
theorem bind_eq_map_bind {α β γ : Type} {first : Option α} {next : α → Option β}
    {other : α → Option γ} {f : γ → β} (h : ∀ value, next value = (other value).map f) :
    (first >>= next) = (first >>= other).map f := by
  cases first with
  | none => rfl
  | some value => exact h value

theorem entry?_append (front rest : List UInt8) (shift offset : Nat) :
    entry? ⟨(front ++ rest).toArray⟩ shift (front.length + offset) =
      ( entry? ⟨rest.toArray⟩ shift offset).map fun found =>
        (found.1, front.length + found.2) := by
  unfold entry?
  simp only [Nat.add_assoc, number?_append, slice?_append]
  split
  · rfl
  -- Field after field is the same; only the offset behind the entry differs.
  · iterate 13 refine bind_eq_map_bind fun _ => ?_
    split
    · rfl
    · split <;> rfl

theorem entries?_append (front rest : List UInt8) (shift count offset : Nat) :
    entries? ⟨(front ++ rest).toArray⟩ shift count (front.length + offset) =
      entries? ⟨rest.toArray⟩ shift count offset := by
  induction count generalizing offset with
  | zero => rfl
  | succ count ih =>
      unfold entries?
      rw [entry?_append]
      cases entry? ⟨rest.toArray⟩ shift offset with
      | none => simp only [Option.map_none, Option.bind_eq_bind, Option.bind_none]
      | some found => simp only [Option.map_some, Option.bind_eq_bind, Option.bind_some, ih]

theorem lastEndMark?_of_mark {bytes : ByteArray} {offset : Nat}
    (hmark : number? bytes offset 4 = some endMark) (count : Nat) :
    lastEndMark? bytes (count + 1) offset = some offset := by
  unfold lastEndMark?
  rw [if_pos hmark]

theorem EndRecord.read?_append (front : List UInt8) {rest : List UInt8} {start : Nat}
    (hstart : start + endLength = rest.length)
    (hmark : number? ⟨rest.toArray⟩ start 4 = some endMark) :
    read? ⟨(front ++ rest).toArray⟩ =
      (read? ⟨rest.toArray⟩).map fun r => { r with start := front.length + r.start } := by
  have hrest : ByteArray.size ⟨rest.toArray⟩ = start + endLength := hstart.symm
  have hwhole : ByteArray.size ⟨(front ++ rest).toArray⟩ = front.length + start + endLength := by
    rw [size_append, hrest, Nat.add_assoc]
  have hfront : number? ⟨(front ++ rest).toArray⟩ (front.length + start) 4 = some endMark := by
    rw [number?_append, hmark]
  have hstarts : ∀ (offset : Nat) (next : Nat → Option EndRecord),
      (some offset >>= next) = next offset := fun _ _ => rfl
  -- In both cases the search for the mark ends where it begins.
  unfold read?
  simp only [hrest, hwhole, if_neg (Nat.not_lt.mpr (Nat.le_add_left endLength _)),
    Nat.add_sub_cancel, lastEndMark?_of_mark hmark, lastEndMark?_of_mark hfront, hstarts]
  simp only [Nat.add_assoc, number?_append, Nat.add_lt_add_iff_left]
  iterate 7 refine bind_eq_map_bind fun _ => ?_
  split <;> rfl

theorem largeLocator?_append (front : List UInt8) {rest : List UInt8} {r : EndRecord} {start : Nat}
    (hlong : 20 + endLength + r.commentLength ≤ rest.length) :
    largeLocator? ⟨(front ++ rest).toArray⟩ { r with start } =
      (largeLocator? ⟨rest.toArray⟩ r).map (front.length + ·) := by
  have hrest : ByteArray.size ⟨rest.toArray⟩ = rest.length := rfl
  unfold largeLocator?
  simp only [size_append, hrest, if_neg (Nat.not_lt.mpr hlong),
    if_neg (Nat.not_lt.mpr (Nat.le_add_left_of_le hlong)), Nat.add_sub_assoc hlong, number?_append]
  split <;> rfl

/-- Whether an end record is the last of a directory, and speaks of it alone, in an archive whose
contents have a certain length. -/
def EndRecord.Closes (r : EndRecord) (directory : List UInt8) (length : Nat) : Prop :=
  number? ⟨directory.toArray⟩ r.start 4 = some endMark ∧
    r.start + endLength = directory.length ∧ r.directorySize = r.start ∧
    r.directoryOffset = length ∧ r.disk = r.directoryDisk ∧
    20 + endLength + r.commentLength ≤ directory.length ∧
    largeLocator? ⟨directory.toArray⟩ r = none

instance (r : EndRecord) (directory : List UInt8) (length : Nat) :
    Decidable (r.Closes directory length) := inferInstanceAs (Decidable (_ ∧ _))

/-- The entries that a directory lists behind contents of a certain length. -/
def listed? (length : Nat) (directory : List UInt8) : Option (List ArchiveEntry) :=
  (EndRecord.read? ⟨directory.toArray⟩).bind fun r =>
    if r.Closes directory length then entries? ⟨directory.toArray⟩ 0 r.entriesHere 0 else none

/-- An archive is read off its directory, whatever the contents in front of it are. -/
theorem ofBytes_append {contents directory : List UInt8} {entries : List ArchiveEntry}
    (h : listed? contents.length directory = some entries) :
    ofBytes ⟨(contents ++ directory).toArray⟩ =
      .ok ⟨⟨(contents ++ directory).toArray⟩, entries⟩ := by
  obtain ⟨r, hread, hlisted⟩ := Option.bind_eq_some_iff.mp h
  obtain ⟨⟨hmark, hlast, hsize, hoffset, halone, hlong, hsmall⟩, hentries⟩ :=
    Option.ite_none_right_eq_some.mp hlisted
  have hwhole := EndRecord.read?_append contents hlast hmark
  rw [hread, Option.map_some] at hwhole
  have hdirectory : directory? ⟨(contents ++ directory).toArray⟩
      { r with start := contents.length + r.start } = some ⟨0, contents.length, r.entriesHere⟩ := by
    unfold directory?
    rw [largeLocator?_append contents hlong, hsmall]
    simp [hsize, hoffset, halone, Nat.add_comm]
  have hfound := entries?_append contents directory 0 r.entriesHere 0
  rw [Nat.add_zero, hentries] at hfound
  simp only [ofBytes, hwhole, hdirectory, hfound, Option.bind_eq_bind, Option.bind_some]

/-! ## Checksums -/

namespace Crc32

theorem table_getD {byte : Nat} (h : byte < 256) :
    table.getD byte 0 = remainder (UInt32.ofNat byte) := by
  simp [table, h]

/-- Take one more byte into a checksum without the table. -/
def divide (crc : UInt32) (byte : UInt8) : UInt32 :=
  (crc >>> 8) ^^^ remainder ((crc ^^^ byte.toUInt32) &&& 0xFF)

theorem update_eq_divide (crc : UInt32) (byte : UInt8) : update crc byte = divide crc byte := by
  have hbyte : ((crc ^^^ byte.toUInt32) &&& 0xFF).toNat < 256 := by
    rw [UInt32.toNat_and]
    exact Nat.lt_of_le_of_lt Nat.and_le_right (by decide)
  unfold update divide
  rw [table_getD hbyte, UInt32.ofNat_toNat]

/-- The checksum of some bytes without the table. -/
def ofList (bytes : List UInt8) : UInt32 := bytes.foldl divide 0xFFFFFFFF ^^^ 0xFFFFFFFF

theorem checksum_eq_ofList (bytes : ByteArray) : checksum bytes = ofList bytes.data.toList := by
  have hupdate : update = divide := funext fun crc => funext fun byte => update_eq_divide crc byte
  unfold checksum ofList
  rw [hupdate, foldl_eq]

end Crc32

/-! ## Entries -/

theorem ofBytes_eq_ok {bytes : ByteArray} {entries : List ArchiveEntry}
    (h : (ofBytes bytes).toOption.map Archive.entries = some entries) :
    ofBytes bytes = .ok ⟨bytes, entries⟩ := by
  unfold ofBytes at h ⊢
  split at h
  · next found hfound =>
      obtain rfl : found = entries := by simpa [Except.toOption] using h
      rfl
  · cases h

theorem read_of_find?_none {jar : Archive} {name : String} (h : jar.find? name = none) :
    jar.read name = .ok none := by
  unfold read
  rw [h]

/-- An entry is read if it can be opened and its content has the stated checksum. -/
theorem read_of_find?_some {jar : Archive} {name : String} (entry : ArchiveEntry)
    {bytes content : ByteArray} (hfind : jar.find? name = some entry)
    (hopen : jar.openEntry entry = .ok bytes)
    (hcontent : uncompressed? entry.method bytes = some content)
    (hchecksum : Crc32.ofList content.data.toList = entry.checksum) :
    jar.read name = .ok (some content) := by
  rw [← Crc32.checksum_eq_ofList] at hchecksum
  have hread : readOpened entry bytes = .ok content := by
    simp only [readOpened, hcontent, hchecksum, if_true]
  have hwhole : jar.content entry = .ok content := by
    rw [Archive.content, hopen]
    exact hread
  simp only [read, hfind, hwhole]
  rfl

theorem read_of_checksum_ne {jar : Archive} {name : String} (entry : ArchiveEntry)
    (content : ByteArray) {bytes : ByteArray} (hfind : jar.find? name = some entry)
    (hopen : jar.openEntry entry = .ok bytes)
    (hcontent : uncompressed? entry.method bytes = some content)
    (hchecksum : Crc32.ofList content.data.toList ≠ entry.checksum) :
    jar.read name = .error .io := by
  rw [← Crc32.checksum_eq_ofList] at hchecksum
  have hread : readOpened entry bytes = .error .io := by
    simp only [readOpened, hcontent, hchecksum, if_false]
  have hwhole : jar.content entry = .error .io := by
    rw [Archive.content, hopen]
    exact hread
  simp only [read, hfind, hwhole]
  rfl

end ModCatalog.Archive
