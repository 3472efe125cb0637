/-!
# Patterns of bytes

Regular patterns in which only single bytes are repeated.  A pattern is run on all starting points
of a text at once, so a run takes one pass over the text for each part of the pattern.
-/

namespace ModCatalog

/-- A set of bytes: those in some ranges, or those in none of them. -/
structure ByteSet where
  ranges : List (UInt8 × UInt8)
  negated : Bool
deriving DecidableEq, Repr

namespace ByteSet

def all : ByteSet := ⟨[], true⟩

def single (byte : UInt8) : ByteSet := ⟨[(byte, byte)], false⟩

def allBut (byte : UInt8) : ByteSet := ⟨[(byte, byte)], true⟩

def contains (set : ByteSet) (byte : UInt8) : Bool :=
  (set.ranges.any fun range => range.1 ≤ byte && byte ≤ range.2) != set.negated

@[simp] theorem contains_all (byte : UInt8) : all.contains byte = true := by
  simp [all, contains]

end ByteSet

/-- A pattern of bytes. -/
inductive Pattern
  /-- The empty text. -/
  | blank
  /-- One byte of a set. -/
  | one (set : ByteSet)
  /-- Any number of bytes of a set. -/
  | many (set : ByteSet)
  | both (first second : Pattern)
  | either (first second : Pattern)
deriving DecidableEq, Repr

namespace Pattern

def sequence (patterns : List Pattern) : Pattern := patterns.foldr both blank

def ofBytes (bytes : List UInt8) : Pattern := sequence (bytes.map fun byte => one (.single byte))

/-- Marks one byte on, where the byte after a mark is in a set. -/
def advance (set : ByteSet) (text : List UInt8) (marks : List Bool) : List Bool :=
  false :: List.zipWith (fun byte mark => mark && set.contains byte) text marks

/-- Marks with all that follow them across bytes of a set; `carried` tells whether a mark comes
in from the front. -/
def spread (set : ByteSet) : (carried : Bool) → List UInt8 → List Bool → List Bool
  | carried, byte :: text, mark :: marks =>
      (carried || mark) :: spread set ((carried || mark) && set.contains byte) text marks
  | carried, [], mark :: _ => [carried || mark]
  | _, _, [] => []

/-- The points of a text at which a pattern may end if it starts at a marked one.  There is a point
before every byte and one at the end. -/
def run : Pattern → List UInt8 → List Bool → List Bool
  | blank, _, marks => marks
  | one set, text, marks => advance set text marks
  | many set, text, marks => spread set false text marks
  | both first second, text, marks => second.run text (first.run text marks)
  | either first second, text, marks =>
      List.zipWith (· || ·) (first.run text marks) (second.run text marks)

def isMatch (pattern : Pattern) (text : List UInt8) : Bool :=
  (pattern.run text (true :: text.map fun _ => false)).getLast? = some true

end Pattern

end ModCatalog
