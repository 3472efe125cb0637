import ModCatalog.Collection.Table
import ModCatalog.Text.Numeral

/-!
# Arguments

The commands, the arguments that each of them takes, and the values that an argument accepts.
-/

namespace ModCatalog.CommandLine

/-- A reason to stop after reading a command line, asked-for help among them. -/
inductive UsageError
  | displayHelp
  | displayHelpOnMissingArgumentOrSubcommand
  | missingSubcommand
  | missingRequiredArgument
  | invalidSubcommand
  | unknownArgument
  | invalidValue
  | valueValidation
  | argumentConflict
  | tooManyValues
deriving DecidableEq, Repr

namespace UsageError

/-- The word for a reason. -/
def text : UsageError → String
  | displayHelp => "DisplayHelp"
  | displayHelpOnMissingArgumentOrSubcommand => "DisplayHelpOnMissingArgumentOrSubcommand"
  | missingSubcommand => "MissingSubcommand"
  | missingRequiredArgument => "MissingRequiredArgument"
  | invalidSubcommand => "InvalidSubcommand"
  | unknownArgument => "UnknownArgument"
  | invalidValue => "InvalidValue"
  | valueValidation => "ValueValidation"
  | argumentConflict => "ArgumentConflict"
  | tooManyValues => "TooManyValues"

/-- The exit code: only help that was asked for is a success. -/
def exitCode : UsageError → Nat
  | displayHelp => 0
  | _ => 2

end UsageError

/-- The values that an argument accepts. -/
inductive ValueForm
  /-- The argument is a switch and takes no value. -/
  | none
  /-- A text that is not empty. -/
  | path
  | text
  /-- An unsigned number of 64 bits. -/
  | number
deriving DecidableEq, Repr

/-- Refuse a text that an argument does not accept. -/
def ValueForm.check (form : ValueForm) (value : String) : Except UsageError Unit :=
  match form with
  | .none | .text => .ok ()
  | .path => if value.isEmpty then .error .invalidValue else .ok ()
  | .number =>
      match Text.readNumber? Text.maxWord64 value.toList with
      | some _ => .ok ()
      | Option.none => .error .valueValidation

/-- The arguments of all commands. -/
inductive Argument
  | db
  | cache
  | threads
  | downloadThreads
  | root
  | gameVersion
  | platform
  | pageSize
  | maxPages
  | fullCleanup
  | jarPath
  | raw
  | noRefs
  | modId
deriving DecidableEq, Repr

namespace Argument

/-- The name that stands after two dashes; an argument without one is known by its place. -/
def flag? : Argument → Option String
  | db => some "db"
  | cache => some "cache"
  | threads => some "threads"
  | downloadThreads => some "download-threads"
  | gameVersion => some "game-version"
  | platform => some "platform"
  | pageSize => some "page-size"
  | maxPages => some "max-pages"
  | fullCleanup => some "full-cleanup"
  | raw => some "raw"
  | noRefs => some "no-refs"
  | root | jarPath | modId => none

def form : Argument → ValueForm
  | db | cache | root | jarPath => .path
  | gameVersion | platform => .text
  | threads | downloadThreads | pageSize | maxPages | modId => .number
  | fullCleanup | raw | noRefs => .none

/-- The arguments that may stand before and after the name of a command. -/
def global : List Argument := [db, cache, threads, downloadThreads]

/-- No two arguments have the same flag. -/
theorem flag?_injective (a b : Argument) (flag : String) (ha : a.flag? = some flag)
    (hb : b.flag? = some flag) : a = b := by
  cases a <;> simp only [flag?, Option.some.injEq, reduceCtorEq] at ha <;> subst ha <;>
    cases b <;> simp_all [flag?]

end Argument

/-- What a command line asks for. -/
inductive Verb
  | index
  | inspect
  | showMod
  | stats
  | schema
  | clear
deriving DecidableEq, Repr

namespace Verb

def all : List Verb := [index, inspect, showMod, stats, schema, clear]

/-- The name of a verb on the command line. -/
def name : Verb → String
  | index => "index"
  | inspect => "inspect"
  | showMod => "show"
  | stats => "stats"
  | schema => "schema"
  | clear => "clear"

def ofName? (word : String) : Option Verb := all.find? fun verb => verb.name = word

def options : Verb → List Argument
  | index => [.gameVersion, .platform, .pageSize, .maxPages, .fullCleanup]
  | inspect => [.raw, .noRefs]
  | _ => []

/-- The argument of a verb that is known by its place. -/
def positional? : Verb → Option Argument
  | index => some .root
  | inspect => some .jarPath
  | showMod => some .modId
  | _ => none

end Verb

/-- A verb with all that it needs. -/
inductive Command
  | index (root gameVersion platform : String) (pageSize : Nat) (maxPages : Option Nat)
      (fullCleanup : Bool)
  | inspect (jarPath : String) (raw noRefs : Bool)
  | showMod (id : Nat)
  | stats
  | schema
  | clear
deriving DecidableEq, Repr

/-- What a command line says about the places and the threads of all commands. -/
structure GlobalOptions where
  db : Option String
  cache : Option String
  threads : Option Nat
  downloadThreads : Option Nat
deriving DecidableEq, Repr

/-- A command line that was understood. -/
structure Invocation where
  command : Command
  options : GlobalOptions
deriving DecidableEq, Repr

end ModCatalog.CommandLine
