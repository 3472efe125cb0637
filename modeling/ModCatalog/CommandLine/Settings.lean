import ModCatalog.CommandLine.Argument
import ModCatalog.Files.Path
import ModCatalog.Indexing.Batch
import ModCatalog.Text.Blank

/-!
# Settings

Where the catalog and the downloads are kept and how much is done at a time.  The command line
decides before the environment, and the environment before what is usual.
-/

namespace ModCatalog.CommandLine

/-- The variables of the environment. -/
structure Environment where
  values : Table String String

/-- Why a setting has no value. -/
inductive SettingFailure
  | noNumber (key value : String)
  | notPositive (key : String)
  | noDataDirectory
deriving DecidableEq, Repr

/-- The message of a setting without a value. -/
def SettingFailure.message : SettingFailure → String
  | noNumber key value => key ++ " is not a number: " ++ Text.quoted value
  | notPositive key => key ++ " must be positive"
  | noDataDirectory => "Failed to resolve data directory"

namespace Environment

/-- The variable for the file of the store. -/
def dbVariable : String := "MOD_INDEXER_DB"

/-- The variable for the directory of downloads. -/
def cacheVariable : String := "MOD_INDEXER_CACHE"

/-- The variable for the number of artifacts at a time. -/
def threadsVariable : String := "MOD_INDEXER_MAX_THREADS"

/-- The variable for the number of downloads at a time. -/
def downloadThreadsVariable : String := "MOD_INDEXER_DOWNLOAD_THREADS"

/-- The variable for whether downloads are kept. -/
def keepVariable : String := "KEEP_PLATFORM_CACHES"

/-- The value of a variable that names an absolute path. -/
def absolute? (env : Environment) (key : String) : Option String :=
  (env.values.get? key).filter fun path => path.toList.head? = some '/'

def home? (env : Environment) : Option String :=
  (env.values.get? "HOME").filter fun path => !path.isEmpty

/-- The directory below which programs keep their data. -/
def dataDirectory? (env : Environment) : Option String :=
  let home := env.home?.map fun home => Path.joinText home ".local/share"
  (env.absolute? "XDG_DATA_HOME").or (home.or (env.absolute? "XDG_CACHE_HOME"))

/-- The directory for everything that is kept. -/
def ownDirectory (env : Environment) : Except SettingFailure String :=
  match env.dataDirectory? with
  | some directory => .ok (Path.joinText directory "mod-indexer")
  | none => .error .noDataDirectory

/-- The value that the command line or else a variable gives, or a path in the own directory. -/
def place (env : Environment) (given : Option String) (key fileName : String) :
    Except SettingFailure String :=
  match given.or (env.values.get? key) with
  | some path => .ok path
  | none => do return Path.joinText (← env.ownDirectory) fileName

/-- Refuse zero. -/
def positive (key : String) (number : Nat) : Except SettingFailure Nat :=
  if number = 0 then .error (.notPositive key) else .ok number

/-- The positive number that a text writes between blanks. -/
def readPositive (key value : String) : Except SettingFailure Nat :=
  match Text.readNumber? Text.maxWord64 (Text.trimBlanks value.toList) with
  | none => .error (.noNumber key value)
  | some number => positive key number

/-- The positive number that the command line or else a variable gives, or the usual one. -/
def count (env : Environment) (given : Option Nat) (key : String) (usual : Nat) :
    Except SettingFailure Nat :=
  match given, env.values.get? key with
  | some number, _ => positive key number
  | none, some value => readPositive key value
  | none, none => .ok usual

/-- Whether downloads are kept; they are unless a variable clearly says no. -/
def keepsCaches (env : Environment) : Bool :=
  (env.values.get? keepVariable).all fun value =>
    !(["0", "false", "no"].contains (String.ofList (Text.trimBlanks value.toList)))

/-- The number of artifacts at a time where none is chosen. -/
def usualThreads : Nat := 50

end Environment

namespace GlobalOptions

def storePath (options : GlobalOptions) (env : Environment) : Except SettingFailure String :=
  env.place options.db Environment.dbVariable "db.lmdb"

/-- The directory of downloads. -/
def cachePath (options : GlobalOptions) (env : Environment) : Except SettingFailure String :=
  env.place options.cache Environment.cacheVariable "cache"

/-- The number of artifacts at a time. -/
def threadCount (options : GlobalOptions) (env : Environment) : Except SettingFailure Nat :=
  env.count options.threads Environment.threadsVariable Environment.usualThreads

/-- The number of downloads at a time. -/
def downloadCount (options : GlobalOptions) (env : Environment) : Except SettingFailure Nat :=
  env.count options.downloadThreads Environment.downloadThreadsVariable
    BatchSettings.defaultDownloadThreads

end GlobalOptions

/-- The file that is locked while a store is open. -/
def lockPath (storePath : String) : String := storePath ++ "-lock"

end ModCatalog.CommandLine
