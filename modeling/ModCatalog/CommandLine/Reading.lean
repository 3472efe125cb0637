import ModCatalog.CommandLine.Argument
import ModCatalog.Text.Split

/-!
# Reading a command line

A command line is read in two levels: the words before the name of a verb, and those after it.  A
word is settled only when the next one is read, because an option waits for its value; so a word
that is wrong by itself is reported before a value that is wrong, and a value before what is
missing.
-/

namespace ModCatalog.CommandLine

/-- The arguments that were given with their texts; a switch has the empty text. -/
abbrev Given := Table Argument String

/-- An argument that was read and is not settled yet; an option may still wait for its value. -/
structure Unsettled where
  argument : Argument
  value : Option String
deriving DecidableEq, Repr

/-- How far a level was read. -/
structure Level where
  /-- The verb of the level; words before any verb are of none. -/
  verb : Option Verb
  given : Given
  unsettled : Option Unsettled
  /-- Whether two dashes have made all words that follow values. -/
  trailing : Bool

namespace Level

/-- A level before its first word. -/
def start (verb : Option Verb) : Level := ⟨verb, .empty, none, false⟩

/-- The arguments with flags that a level knows. -/
def options (level : Level) : List Argument :=
  match level.verb with
  | none => Argument.global
  | some verb => Argument.global ++ verb.options

def option? (level : Level) (flag : String) : Option Argument :=
  level.options.find? fun argument => argument.flag? = some flag

/-- The argument that the next word without a flag belongs to. -/
def positional? (level : Level) : Option Argument :=
  (level.verb.bind Verb.positional?).filter fun argument =>
    (level.given.get? argument).isNone && level.unsettled.all fun entry => entry.argument ≠ argument

/-- Accept an argument with its text, once. -/
def accept (level : Level) (argument : Argument) (value : Option String) :
    Except UsageError Level := do
  match argument.form, value with
  | .none, _ => pure ()
  | _, none => throw .invalidValue
  | _, some _ => pure ()
  if (level.given.get? argument).isSome then throw .argumentConflict
  argument.form.check (value.getD "")
  return { level with given := level.given.put argument (value.getD "") }

/-- Settle the argument that was read last. -/
def settle (level : Level) : Except UsageError Level :=
  match level.unsettled with
  | none => .ok level
  | some entry => { level with unsettled := none }.accept entry.argument entry.value

def waiting? (level : Level) : Option Argument :=
  (level.unsettled.filter fun entry => entry.value.isNone).map Unsettled.argument

/-- Read a word that stands after two dashes, with the text after an equals sign if there is one. -/
def readFlag (level : Level) (flag : String) (value : Option String) : Except UsageError Level :=
  if flag = "help" then
    match value with
    | some _ => .error .tooManyValues
    | none => do
        let _ ← level.settle
        throw .displayHelp
  else
    match level.option? flag with
    | none => .error .unknownArgument
    | some argument =>
        match argument.form, value with
        | .none, some _ => .error .tooManyValues
        | .none, none => do (← level.settle).accept argument none
        | _, some text => do (← level.settle).accept argument (some text)
        | _, none => do return { ← level.settle with unsettled := some ⟨argument, none⟩ }

/-- The error of a word for which there is no place. -/
def surplus (level : Level) (word : String) : UsageError :=
  match level.verb with
  | some _ => .unknownArgument
  | none =>
      if level.trailing && (word = "help" || (Verb.ofName? word).isSome) then .unknownArgument
      else .invalidSubcommand

def readValue (level : Level) (word : String) : Except UsageError Level :=
  match level.positional? with
  | none => .error (level.surplus word)
  | some argument => do return { ← level.settle with unsettled := some ⟨argument, some word⟩ }

def readWord (level : Level) (word : String) : Except UsageError Level :=
  if level.trailing then level.readValue word
  else
    match word.toList with
    | ['-', '-'] => .ok { level with trailing := true }
    | '-' :: '-' :: rest =>
        match Text.splitFirst? (· = '=') rest with
        | none => level.readFlag (String.ofList rest) none
        | some (flag, value) => level.readFlag (String.ofList flag) (some (String.ofList value))
    | '-' :: 'h' :: _ => do
        let _ ← level.settle
        throw .displayHelp
    | '-' :: _ :: _ => .error .unknownArgument
    | _ =>
        match level.waiting? with
        | some argument => .ok { level with unsettled := some ⟨argument, some word⟩ }
        | none => level.readValue word

/-- Whether a word is looked up among the verbs. -/
def seeksVerb (level : Level) : Bool :=
  level.verb.isNone && !level.trailing && level.waiting?.isNone

end Level

/-- The text of an argument, from the words after the verb or else from those before it. -/
def given? (outer inner : Given) (argument : Argument) : Option String :=
  (inner.get? argument).or (outer.get? argument)

def number? (text : Option String) : Option Nat :=
  text.bind fun text => Text.readNumber? Text.maxWord64 text.toList

/-- The value of an argument that must be there. -/
def require {α : Type} : Option α → Except UsageError α
  | some value => .ok value
  | none => .error .missingRequiredArgument

/-- The platform where none is chosen. -/
def defaultPlatform : String := "local"

/-- The length of a page where none is chosen. -/
def defaultPageSize : Nat := 50

def Verb.command (verb : Verb) (given : Given) : Except UsageError Command := do
  let has := fun argument => (given.get? argument).isSome
  match verb with
  | .index =>
      let root ← require (given.get? .root)
      let gameVersion ← require (given.get? .gameVersion)
      return .index root gameVersion ((given.get? .platform).getD defaultPlatform)
        ((number? (given.get? .pageSize)).getD defaultPageSize) (number? (given.get? .maxPages))
        (has .fullCleanup)
  | .inspect => return .inspect (← require (given.get? .jarPath)) (has .raw) (has .noRefs)
  | .showMod => return .showMod (← require (number? (given.get? .modId)))
  | .stats => return .stats
  | .schema => return .schema
  | .clear => return .clear

/-- The options of all commands that were given before and after the verb. -/
def GlobalOptions.ofGiven (outer inner : Given) : GlobalOptions where
  db := given? outer inner .db
  cache := given? outer inner .cache
  threads := number? (given? outer inner .threads)
  downloadThreads := number? (given? outer inner .downloadThreads)

/-- What `help` is asked about: nothing, a verb, or itself. -/
def readHelp : List String → UsageError
  | [] => .displayHelp
  | [word] =>
      if word = "help" || (Verb.ofName? word).isSome then .displayHelp else .invalidSubcommand
  | _ => .invalidSubcommand

/-- Read the words after a verb, and then settle the word before it. -/
def readVerb (outer : Level) (verb : Verb) (words : List String) :
    Except UsageError Invocation := do
  let inner ← words.foldlM Level.readWord (Level.start (some verb))
  let inner ← inner.settle
  let command ← verb.command inner.given
  let outer ← outer.settle
  return ⟨command, .ofGiven outer.given inner.given⟩

/-- The error of a command line without a verb. -/
def withoutVerb (level : Level) : UsageError :=
  match level.settle with
  | .error error => error
  | .ok level =>
      if level.given.size = 0 then .displayHelpOnMissingArgumentOrSubcommand else .missingSubcommand

/-- Read the words from a level without a verb on. -/
def readWords (level : Level) : List String → Except UsageError Invocation
  | [] => .error (withoutVerb level)
  | word :: rest =>
      if level.seeksVerb && word = "help" then .error (readHelp rest)
      else
        match if level.seeksVerb then Verb.ofName? word else none with
        | some verb => readVerb level verb rest
        | none => do readWords (← level.readWord word) rest

/-- Read a command line without the name of the program. -/
def Invocation.read (words : List String) : Except UsageError Invocation :=
  readWords (Level.start none) words

end ModCatalog.CommandLine
