import ModCatalog.Archive.Crc32
import ModCatalog.Archive.Inflate
import ModCatalog.Fault
import ModCatalog.Text.Utf8

/-!
# Archives

The reading of zip archives.  The directory at the end lists the entries; bytes in front of the
archive are tolerated, and large archives keep their counts in a record of their own.  An archive
that cannot be understood, or an entry that cannot be opened, is a fault of the archive; damaged
content is found when an entry is read.
-/

namespace ModCatalog

/-- An entry of the directory of an archive. -/
structure ArchiveEntry where
  name : String
  /-- How the content is compressed. -/
  method : Nat
  encrypted : Bool
  /-- Whether the extra fields describe strong encryption, which the entry itself need not state. -/
  stronglyEncrypted : Bool
  checksum : UInt32
  compressedSize : Nat
  /-- Where the local header of the entry starts. -/
  headerStart : Nat
deriving DecidableEq, Repr

/-- The bytes of an archive and its entries in directory order. -/
structure Archive where
  bytes : ByteArray
  entries : List ArchiveEntry

namespace Archive

/-- The number of `width` bytes at an offset, lowest byte first. -/
def number? (bytes : ByteArray) (offset : Nat) : Nat → Option Nat
  | 0 => some 0
  | width + 1 =>
      if offset < bytes.size then
        (number? bytes (offset + 1) width).map ((bytes.get! offset).toNat + 256 * ·)
      else none

def slice? (bytes : ByteArray) (offset length : Nat) : Option ByteArray :=
  if offset + length ≤ bytes.size then some (bytes.extract offset (offset + length)) else none

/-- The characters of the upper half of the code page that names are in when they are not UTF-8. -/
def codePage : Array Nat := #[
  0x00C7, 0x00FC, 0x00E9, 0x00E2, 0x00E4, 0x00E0, 0x00E5, 0x00E7,
  0x00EA, 0x00EB, 0x00E8, 0x00EF, 0x00EE, 0x00EC, 0x00C4, 0x00C5,
  0x00C9, 0x00E6, 0x00C6, 0x00F4, 0x00F6, 0x00F2, 0x00FB, 0x00F9,
  0x00FF, 0x00D6, 0x00DC, 0x00A2, 0x00A3, 0x00A5, 0x20A7, 0x0192,
  0x00E1, 0x00ED, 0x00F3, 0x00FA, 0x00F1, 0x00D1, 0x00AA, 0x00BA,
  0x00BF, 0x2310, 0x00AC, 0x00BD, 0x00BC, 0x00A1, 0x00AB, 0x00BB,
  0x2591, 0x2592, 0x2593, 0x2502, 0x2524, 0x2561, 0x2562, 0x2556,
  0x2555, 0x2563, 0x2551, 0x2557, 0x255D, 0x255C, 0x255B, 0x2510,
  0x2514, 0x2534, 0x252C, 0x251C, 0x2500, 0x253C, 0x255E, 0x255F,
  0x255A, 0x2554, 0x2569, 0x2566, 0x2560, 0x2550, 0x256C, 0x2567,
  0x2568, 0x2564, 0x2565, 0x2559, 0x2558, 0x2552, 0x2553, 0x256B,
  0x256A, 0x2518, 0x250C, 0x2588, 0x2584, 0x258C, 0x2590, 0x2580,
  0x03B1, 0x00DF, 0x0393, 0x03C0, 0x03A3, 0x03C3, 0x00B5, 0x03C4,
  0x03A6, 0x0398, 0x03A9, 0x03B4, 0x221E, 0x03C6, 0x03B5, 0x2229,
  0x2261, 0x00B1, 0x2265, 0x2264, 0x2320, 0x2321, 0x00F7, 0x2248,
  0x00B0, 0x2219, 0x00B7, 0x221A, 0x207F, 0x00B2, 0x25A0, 0x00A0]

def nameOf (isUtf8 : Bool) (bytes : ByteArray) : String :=
  if isUtf8 then Text.ofUtf8Lossy bytes
  else
    String.ofList <| bytes.toList.map fun b =>
      if b.toNat < 0x80 then Char.ofNat b.toNat else Char.ofNat (codePage.getD (b.toNat - 0x80) 0)

/-- The mark of the record at the end of an archive. -/
def endMark : Nat := 0x06054b50

/-- The mark of the locator of the end record of a large archive. -/
def largeLocatorMark : Nat := 0x07064b50

/-- The mark of the end record of a large archive. -/
def largeEndMark : Nat := 0x06064b50

def entryMark : Nat := 0x02014b50

/-- The mark of the header in front of a content. -/
def headerMark : Nat := 0x04034b50

/-- The length of the end record without its comment. -/
def endLength : Nat := 22

/-- The greatest value of a field that is continued elsewhere. -/
def overflow32 : Nat := 0xFFFFFFFF

/-- The last place of the next `count` places, from `offset` down, where the end mark stands. -/
def lastEndMark? (bytes : ByteArray) : Nat → Nat → Option Nat
  | 0, _ => none
  | count + 1, offset =>
      if number? bytes offset 4 = some endMark then some offset
      else if offset = 0 then none
      else lastEndMark? bytes count (offset - 1)

/-- The record at the end of an archive. -/
structure EndRecord where
  start : Nat
  disk : Nat
  directoryDisk : Nat
  entriesHere : Nat
  entries : Nat
  directorySize : Nat
  directoryOffset : Nat
  commentLength : Nat
deriving DecidableEq, Repr

namespace EndRecord

/-- The end record: the last one whose comment may be as long as it can be. -/
def read? (bytes : ByteArray) : Option EndRecord := do
  if bytes.size < endLength then none
  let top := bytes.size - endLength
  let lowest := bytes.size - (endLength + 0xFFFF)
  let start ← lastEndMark? bytes (top - lowest + 1) top
  let disk ← number? bytes (start + 4) 2
  let directoryDisk ← number? bytes (start + 6) 2
  let entriesHere ← number? bytes (start + 8) 2
  let entries ← number? bytes (start + 10) 2
  let directorySize ← number? bytes (start + 12) 4
  let directoryOffset ← number? bytes (start + 16) 4
  let commentLength ← number? bytes (start + 20) 2
  if bytes.size < start + endLength + commentLength then none
  return ⟨start, disk, directoryDisk, entriesHere, entries, directorySize, directoryOffset,
    commentLength⟩

/-- Whether a field of the record is too small for its value. -/
def isTooSmall (r : EndRecord) : Bool :=
  r.disk = 0xFFFF || r.directoryDisk = 0xFFFF || r.entriesHere = 0xFFFF || r.entries = 0xFFFF ||
    r.directorySize = overflow32 || r.directoryOffset = overflow32

end EndRecord

/-- Where the directory is: how far the archive is shifted, where it starts, and how many
entries it has. -/
structure Directory where
  shift : Nat
  start : Nat
  count : Nat
deriving DecidableEq, Repr

/-- The first of the next `count` places from `offset` up where the end record of a large
archive stands. -/
def firstLargeEnd? (bytes : ByteArray) : Nat → Nat → Option Nat
  | 0, _ => none
  | count + 1, offset =>
      if number? bytes offset 4 = some largeEndMark then some offset
      else firstLargeEnd? bytes count (offset + 1)

/-- The directory of a large archive, whose locator stands at an offset. -/
def largeDirectory? (bytes : ByteArray) (r : EndRecord) (locator : Nat) : Option Directory := do
  let disk ← number? bytes (locator + 4) 4
  let nominal ← number? bytes (locator + 8) 8
  let _ ← number? bytes (locator + 16) 4
  if !r.isTooSmall && r.disk ≠ disk then none
  if r.start < 60 then none
  let start ← firstLargeEnd? bytes (r.start - 60 + 1 - nominal) nominal
  let disk ← number? bytes (start + 16) 4
  let directoryDisk ← number? bytes (start + 20) 4
  let count ← number? bytes (start + 32) 8
  let offset ← number? bytes (start + 48) 8
  if disk ≠ directoryDisk then none
  if Nat.pow 2 64 ≤ offset + (start - nominal) then none
  return ⟨start - nominal, offset + (start - nominal), count⟩

/-- Where the locator of a large archive stands, if there is one. -/
def largeLocator? (bytes : ByteArray) (r : EndRecord) : Option Nat :=
  let distance := 20 + endLength + r.commentLength
  if bytes.size < distance then none
  else if number? bytes (bytes.size - distance) 4 = some largeLocatorMark then
    some (bytes.size - distance)
  else none

def directory? (bytes : ByteArray) (r : EndRecord) : Option Directory :=
  if !r.isTooSmall && r.disk ≠ r.directoryDisk then none
  else
    match largeLocator? bytes r with
    | some locator => largeDirectory? bytes r locator
    | none =>
        if r.start < r.directorySize + r.directoryOffset then none
        else
          let shift := r.start - r.directorySize - r.directoryOffset
          some ⟨shift, r.directoryOffset + shift, r.entriesHere⟩

/-- The fields of an entry that an extra field may replace. -/
structure Extras where
  method : Nat
  compressedSize : Nat
  uncompressedSize : Nat
  headerStart : Nat
  strongEncryption : Bool
deriving DecidableEq, Repr

/-- A field that is continued in eight bytes at an offset if it holds the greatest value. -/
def continued (extra : ByteArray) (field offset : Nat) : Option (Nat × Nat) :=
  if field = overflow32 then (number? extra offset 8).map fun value => (value, offset + 8)
  else some (field, offset)

/-- The fields of a large entry, with the offset after what was read; what is read is kept if
more is missing. -/
def largeFields (extra : ByteArray) (e : Extras) (offset : Nat) : Extras × Option Nat :=
  match continued extra e.uncompressedSize offset with
  | none => (e, none)
  | some (size, offset) =>
      let e := { e with uncompressedSize := size }
      match continued extra e.compressedSize offset with
      | none => (e, none)
      | some (size, offset) =>
          let e := { e with compressedSize := size }
          match continued extra e.headerStart offset with
          | none => (e, none)
          | some (start, offset) => ({ e with headerStart := start }, some offset)

/-- The description of strong encryption; none if it is not valid, and an offset of none if it
is cut off. -/
def strongFields (extra : ByteArray) (e : Extras) (length offset : Nat) :
    Option (Extras × Option Nat) :=
  if length ≠ 7 then none
  else
    match number? extra offset 2, number? extra (offset + 2) 2, number? extra (offset + 4) 1,
        number? extra (offset + 5) 2 with
    | some version, some vendor, some strength, some method =>
        if vendor ≠ 0x4541 ∨ (version ≠ 1 ∧ version ≠ 2) ∨ strength = 0 ∨ 3 < strength then none
        else some ({ e with method := method, strongEncryption := true }, some (offset + 7))
    | _, _, _, _ => some (e, none)

/--
Read the extra fields of an entry from an offset on; `bound` is at least the number of fields.
None if a field is not valid; fields that are cut off end the reading.
-/
def extraFields (extra : ByteArray) : Nat → Nat → Extras → Option Extras
  | 0, _, e => some e
  | bound + 1, offset, e =>
      if extra.size ≤ offset then some e
      else
        match number? extra offset 2, number? extra (offset + 2) 2 with
        | some kind, some length =>
            let body := offset + 4
            if kind = 0x0001 then
              match largeFields extra e body with
              | (e, none) => some e
              | (e, some after) => extraFields extra bound (max after (body + length)) e
            else if kind = 0x9901 then
              match strongFields extra e length body with
              | none => none
              | some (e, none) => some e
              | some (e, some after) => extraFields extra bound (after + length) e
            else extraFields extra bound (body + length) e
        | _, _ => some e

/-- The method that stands for strong encryption. -/
def strongMethod : Nat := 99

/-- The entry of the directory at an offset, with the offset after it. -/
def entry? (bytes : ByteArray) (shift offset : Nat) : Option (ArchiveEntry × Nat) := do
  if number? bytes offset 4 ≠ some entryMark then none
  let flags ← number? bytes (offset + 8) 2
  let method ← number? bytes (offset + 10) 2
  let checksum ← number? bytes (offset + 16) 4
  let compressedSize ← number? bytes (offset + 20) 4
  let uncompressedSize ← number? bytes (offset + 24) 4
  let nameLength ← number? bytes (offset + 28) 2
  let extraLength ← number? bytes (offset + 30) 2
  let commentLength ← number? bytes (offset + 32) 2
  let headerStart ← number? bytes (offset + 42) 4
  let name ← slice? bytes (offset + 46) nameLength
  let extra ← slice? bytes (offset + 46 + nameLength) extraLength
  let _ ← slice? bytes (offset + 46 + nameLength + extraLength) commentLength
  let e ← extraFields extra (extraLength + 1) 0
    ⟨method, compressedSize, uncompressedSize, headerStart, false⟩
  if e.method = strongMethod ∧ !e.strongEncryption then none
  if Nat.pow 2 64 ≤ e.headerStart + shift then none
  return (⟨nameOf (flags >>> 11 % 2 = 1) name, e.method, flags % 2 = 1, e.strongEncryption,
      UInt32.ofNat checksum, e.compressedSize, e.headerStart + shift⟩,
    offset + 46 + nameLength + extraLength + commentLength)

/-- `count` entries of the directory from an offset on. -/
def entries? (bytes : ByteArray) (shift : Nat) : Nat → Nat → Option (List ArchiveEntry)
  | 0, _ => some []
  | count + 1, offset => do
      let (entry, offset) ← entry? bytes shift offset
      let others ← entries? bytes shift count offset
      return entry :: others

def ofBytes (bytes : ByteArray) : Except Fault Archive :=
  match (do
    let r ← EndRecord.read? bytes
    let directory ← directory? bytes r
    entries? bytes directory.shift directory.count directory.start) with
  | some entries => .ok ⟨bytes, entries⟩
  | none => .error .archive

def find? (archive : Archive) (name : String) : Option ArchiveEntry :=
  archive.entries.reverse.find? fun entry => entry.name = name

def names (archive : Archive) : List String := archive.entries.map ArchiveEntry.name

/-- The compressed content of an entry; it ends where the archive ends. -/
def compressed? (archive : Archive) (entry : ArchiveEntry) : Option ByteArray := do
  if entry.encrypted then none
  if number? archive.bytes entry.headerStart 4 ≠ some headerMark then none
  let nameLength ← number? archive.bytes (entry.headerStart + 26) 2
  let extraLength ← number? archive.bytes (entry.headerStart + 28) 2
  let start := entry.headerStart + 30 + nameLength + extraLength
  return archive.bytes.extract start (start + entry.compressedSize)

/-- Whether content of an entry can be read at all. -/
def isSupported (entry : ArchiveEntry) : Bool := entry.method = 0 || entry.method = 8

/-- The compressed content of an entry that can be opened; only strong encryption that the entry
does not state comes as a surprise. -/
def openEntry (archive : Archive) (entry : ArchiveEntry) : Except Fault ByteArray :=
  match archive.compressed? entry with
  | none => .error .archive
  | some content =>
      if !isSupported entry then .error .archive
      else if entry.stronglyEncrypted then .error .passwordMissing
      else .ok content

/-- The content that compressed content stands for under a method; none if it is damaged. -/
def uncompressed? (method : Nat) (content : ByteArray) : Option ByteArray :=
  if method = 8 then Inflate.inflate? content else some content

/-- The content of an opened entry, checked against its checksum. -/
def readOpened (entry : ArchiveEntry) (content : ByteArray) : Except Fault ByteArray :=
  match uncompressed? entry.method content with
  | none => .error .io
  | some content => if Crc32.checksum content = entry.checksum then .ok content else .error .io

def content (archive : Archive) (entry : ArchiveEntry) : Except Fault ByteArray := do
  readOpened entry (← archive.openEntry entry)

def isDirectory (entry : ArchiveEntry) : Bool :=
  match entry.name.toList.getLast? with
  | some c => c = '/' || c = '\\'
  | none => false

end Archive

end ModCatalog
