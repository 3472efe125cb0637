import ModCatalog.Files.Pattern
import ModCatalog.Text.Utf8

/-!
# Wildcards

The written form of patterns of paths.  A question mark stands for a byte and an asterisk for any
bytes of one name; two asterisks between slashes stand for any directories; brackets hold
characters and ranges of them, and braces hold choices.  A backslash takes its character as it is.
-/

namespace ModCatalog

namespace Wildcard

def slash : UInt8 := 47

def bytesOf (c : Char) : List UInt8 := (String.singleton c).toUTF8.toList

/-- A part of a pattern. -/
inductive Token
  | literal (c : Char)
  | anyByte
  | anyBytes
  /-- Any directories in front of the first name. -/
  | leading
  /-- Anything below a directory. -/
  | trailing
  /-- A slash, or any directories between two slashes. -/
  | between
  | oneOf (set : ByteSet)
  /-- A choice of patterns; none if nothing is written for any of them. -/
  | choice (pattern : Option Pattern)
deriving DecidableEq, Repr

/-- Any path and a slash after it. -/
def anyDirectory : Pattern := .both (.many .all) (.one (.single slash))

def Token.pattern : Token → Pattern
  | literal c => .ofBytes (bytesOf c)
  | anyByte => .one (.allBut slash)
  | anyBytes => .many (.allBut slash)
  | leading => .either (.either .blank (.one (.single slash))) anyDirectory
  | trailing => .both (.one (.single slash)) (.many .all)
  | between =>
      .either (.one (.single slash)) (.both (.one (.single slash)) anyDirectory)
  | oneOf set => .one set
  | choice pattern => pattern.getD .blank

/-- The pattern of parts that stand last first; none if nothing is written for any of them. -/
def branch (tokens : List Token) : Option Pattern :=
  if tokens.all (· = .choice none) then none
  else some (.sequence (tokens.reverse.map Token.pattern))

/-- A choice between patterns, without those for which nothing is written. -/
def choose (branches : List (Option Pattern)) : Token :=
  match branches.filterMap id with
  | [] => .choice none
  | first :: others => .choice (some (others.foldl .either first))

/-! ## Characters in brackets -/

/-- The bytes between two characters, which in a range are the last byte of the one to the first
byte of the other. -/
def byteRanges (range : Char × Char) : List (UInt8 × UInt8) :=
  let low := bytesOf range.1
  let high := bytesOf range.2
  let single := fun (byte : UInt8) => (byte, byte)
  if range.1 = range.2 then low.map single
  else low.dropLast.map single ++ [(low.getLastD 0, high.headD 0)] ++ high.tail.map single

/-- What is read in brackets. -/
inductive Bracket
  | closed (ranges : List (Char × Char)) (rest : List Char)
  | unclosed
  /-- A range that ends before it begins. -/
  | reversed
deriving DecidableEq, Repr

/-- Read the characters in brackets; the ranges read so far stand last first, and a closing bracket
in front counts as a character.  `open?` tells whether a dash has opened a range. -/
def readBracket : List Char → (first open? : Bool) → List (Char × Char) → Bracket
  | [], _, _, _ => .unclosed
  | c :: rest, first, open?, ranges =>
      if c = ']' ∧ !first then .closed (if open? then ('-', '-') :: ranges else ranges) rest
      else if c = '-' ∧ !first ∧ !open? then readBracket rest false true ranges
      else
        match open?, ranges with
        | true, (low, _) :: others =>
            if c < low then .reversed else readBracket rest false false ((low, c) :: others)
        | _, _ => readBracket rest false false ((c, c) :: ranges)

/-- Read brackets after the opening one; an exclamation mark or a caret in front excludes the
characters. -/
def readSet (text : List Char) : Bool × Bracket :=
  match text with
  | '!' :: rest | '^' :: rest => (true, readBracket rest true false [])
  | _ => (false, readBracket text true false [])

/-! ## Reading -/

/-- What has been read of a pattern. -/
structure State where
  /-- The parts of the branch that is read, last first. -/
  tokens : List Token
  /-- The open choices, innermost first: the parts in front of each, and its finished branches, last
  first. -/
  choices : List (List Token × List (Option Pattern))
  /-- Whether an opening bracket still opens a set of characters. -/
  brackets : Bool
deriving DecidableEq, Repr

namespace State

def start : State := ⟨[], [], true⟩

/-- Add a part. -/
def push (state : State) (token : Token) : State := { state with tokens := token :: state.tokens }

/-- Add two parts that stand for any bytes of a name. -/
def pushTwoStars (state : State) : State := (state.push .anyBytes).push .anyBytes

def openChoice (state : State) : State :=
  { state with tokens := [], choices := (state.tokens, []) :: state.choices }

/-- Go on to the next branch of the innermost choice; outside of all, a comma is a character. -/
def nextBranch (state : State) : State :=
  match state.choices with
  | [] => state.push (.literal ',')
  | (before, branches) :: others =>
      { state with
        tokens := []
        choices := (before, branch state.tokens :: branches) :: others }

def closeChoice? (state : State) : Option State :=
  match state.choices with
  | [] => none
  | (before, branches) :: others =>
      some { state with
        tokens := choose (branch state.tokens :: branches).reverse :: before
        choices := others }

/-- Put directories in place of the slash that was read last. -/
def replaceSlash (state : State) (token : Token) : State :=
  let token :=
    match state.tokens.head? with
    | some .leading => .leading
    | some .trailing => .trailing
    | _ => token
  { state with tokens := token :: state.tokens.tail }

/-- Whether two asterisks after a character may stand for directories. -/
def mayBeDirectories (state : State) (previous : Option Char) : Bool :=
  previous = some '/' ||
    (!state.choices.isEmpty && (previous = some ',' || previous = some '{'))

/-- Add what two asterisks stand for between a character and what follows; also gives what is to be
read then. -/
def pushDirectories (state : State) (previous : Option Char) (rest : List Char) :
    State × List Char :=
  if state.tokens.isEmpty then
    match rest with
    | [] => (state.push .leading, [])
    | '/' :: after => (state.push .leading, after)
    | _ => (state.pushTwoStars, rest)
  else if !state.mayBeDirectories previous then (state.pushTwoStars, rest)
  else
    match rest with
    | [] => (state.replaceSlash .trailing, [])
    | '/' :: after => (state.replaceSlash .between, after)
    | c :: _ =>
        if (c = ',' || c = '}') && !state.choices.isEmpty then (state.replaceSlash .trailing, rest)
        else (state.pushTwoStars, rest)

end State

/--
Read a pattern from a place on, where `previous` is the character in front of it and `bound` is
greater than the number of characters.  None if braces are not in pairs, if a range is reversed, or
if nothing follows a backslash.
-/
def readFrom : (bound : Nat) → (previous : Option Char) → List Char → State → Option State
  | 0, _, _, _ => none
  | _, _, [], state => some state
  | bound + 1, previous, c :: rest, state =>
      match c, rest with
      | '?', _ => readFrom bound c rest (state.push .anyByte)
      | '*', '*' :: rest =>
          let (state, after) := state.pushDirectories previous rest
          readFrom bound (if after.length < rest.length then '/' else '*') after state
      | '*', _ => readFrom bound c rest (state.push .anyBytes)
      | '{', _ => readFrom bound c rest state.openChoice
      | '}', _ => do readFrom bound c rest (← state.closeChoice?)
      | ',', _ => readFrom bound c rest state.nextBranch
      | '\\', [] => none
      | '\\', d :: rest => readFrom bound d rest (state.push (.literal d))
      | _, _ =>
          if c = '[' && state.brackets then
            match readSet rest with
            | (negated, .closed ranges rest) =>
                let set : ByteSet := ⟨ranges.reverse.flatMap byteRanges, negated⟩
                readFrom bound ']' rest (state.push (.oneOf set))
            | (_, .unclosed) =>
                readFrom bound c rest { state.push (.literal c) with brackets := false }
            | (_, .reversed) => none
          else readFrom bound c rest (state.push (.literal c))

/-- The pattern of a written one.  Two asterisks alone stand for everything. -/
def pattern? (text : List Char) : Option Pattern := do
  let state ← readFrom (text.length + 1) none text .start
  if !state.choices.isEmpty then none
  if state.tokens = [.leading] then return .many .all
  return .sequence (state.tokens.reverse.map Token.pattern)

end Wildcard

end ModCatalog
