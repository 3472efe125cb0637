import ModCatalog.Text.Blank
import ModCatalog.Text.Numeral

/-!
# Versions

Versions of artifacts and their order.  A version is a list of numbers and qualifiers.  A missing
item counts like zero and like the empty qualifier, and qualifiers that announce a release come
before it:
`1.0-alpha < 1.0-beta < 1.0-rc1 < 1.0-SNAPSHOT < 1.0 = 1.0.0 < 1.0-sp1 < 1.0.1`.
-/

namespace ModCatalog

/-- A part of a version. -/
inductive VersionItem
  | number (value : Nat)
  | qualifier (name : String)
deriving DecidableEq, Repr

namespace VersionItem

/-- The qualifiers with a place of their own, in increasing order; the empty one stands for a
release. -/
def knownQualifiers : List String := ["alpha", "beta", "milestone", "rc", "snapshot", "", "sp"]

/-- The place of a qualifier; unknown ones come last. -/
def qualifierRank (name : String) : Nat := knownQualifiers.findIdx (· = name)

/-- The text by which qualifiers of one rank are ordered. -/
def qualifierText (name : String) : String := if knownQualifiers.contains name then "" else name

def compareQualifiers (a b : String) : Ordering :=
  (compare (qualifierRank a) (qualifierRank b)).then (compare (qualifierText a) (qualifierText b))

def compareMissing : VersionItem → Ordering
  | .number value => compare value 0
  | .qualifier name => compareQualifiers name ""

def compareItem : VersionItem → VersionItem → Ordering
  | .number a, .number b => compare a b
  | .number _, .qualifier _ => .gt
  | .qualifier _, .number _ => .lt
  | .qualifier a, .qualifier b => compareQualifiers a b

/-- Whether an item says nothing at the end of a version. -/
def isNull : VersionItem → Bool
  | .number value => value = 0
  | .qualifier name => name = ""

/-- The item that a piece of a version stands for; single letters are short names before a digit. -/
def ofPiece (piece : List Char) (next : Option Char) : VersionItem :=
  if piece.all Char.isDigit then .number (Text.ofDigits piece)
  else
    let beforeDigit := next.any Char.isDigit
    match String.ofList piece with
    | "a" => .qualifier (if beforeDigit then "alpha" else "a")
    | "b" => .qualifier (if beforeDigit then "beta" else "b")
    | "m" => .qualifier (if beforeDigit then "milestone" else "m")
    | "cr" => .qualifier "rc"
    | "ga" | "final" | "release" => .qualifier ""
    | name => .qualifier name

end VersionItem

/-- A version as it is written. -/
structure Version where
  text : String
deriving DecidableEq, Repr

namespace Version

def unknown : Version := ⟨"0.0NONE"⟩

def isSeparator (c : Char) : Bool := c = '.' || c = '-' || c = '_' || c = '+'

/-- Whether a piece ends between two characters: one is a digit and the other is not. -/
def isTransition (last next : Char) : Bool := last.isDigit != next.isDigit

/-- The item of a piece, unless the piece is empty. -/
def itemOf (piece : List Char) (next : Option Char) : List VersionItem :=
  if piece.isEmpty then [] else [.ofPiece piece next]

/--
The items of the characters that remain, after the piece read so far.  At a transition, a character
that is neither letter nor digit only separates.
-/
def itemsFrom (piece : List Char) : List Char → List VersionItem
  | [] => itemOf piece none
  | c :: rest =>
      if isSeparator c then itemOf piece (some c) ++ itemsFrom [] rest
      else if piece.getLast?.any (isTransition · c) then
        itemOf piece (some c) ++ itemsFrom (if c.isAlphanum then [c] else []) rest
      else itemsFrom (piece ++ [c]) rest

/-- Remove the items at the end that say nothing. -/
def dropNullEnd (items : List VersionItem) : List VersionItem :=
  (items.reverse.dropWhile VersionItem.isNull).reverse

/-- The items of a version, without regard to case and to blanks at its ends. -/
def items (version : Version) : List VersionItem :=
  dropNullEnd (itemsFrom [] ((Text.trimBlanks version.text.toList).map Char.toLower))

/-- The order of lists of items, where a missing item is compared as such. -/
def compareItems : List VersionItem → List VersionItem → Ordering
  | [], [] => .eq
  | a :: as, [] => a.compareMissing.then (compareItems as [])
  | [], b :: bs => b.compareMissing.swap.then (compareItems [] bs)
  | a :: as, b :: bs => (a.compareItem b).then (compareItems as bs)

def compare (a b : Version) : Ordering := compareItems a.items b.items

def isAbove (a b : Version) : Bool := a.compare b == .gt

/-- Whether a version is at least as high as another. -/
def isAtLeast (a b : Version) : Bool := a.compare b != .lt

end Version

end ModCatalog
