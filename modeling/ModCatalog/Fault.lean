import ModCatalog.ClassFile.Defect

/-!
# Faults

Everything that can go wrong while a catalog is built, with its message.  A fault concerns one
artifact or one file; only what was refused before any work began concerns the whole run.
-/

namespace ModCatalog

/-- Why the classes or the description of an artifact cannot be read. -/
inductive Malformation
  | classFile (defect : ClassFile.Defect)
  /-- A class file inside an archive. -/
  | entry (name : String) (defect : ClassFile.Defect)
  | other (text : String)
deriving DecidableEq, Repr

/-- Why a settings value is refused. -/
inductive Misconfiguration
  | zeroThreads
  | zeroCeiling
  | zeroWeight
  | zeroPages
  | other (text : String)
deriving DecidableEq, Repr

/-- Why a platform does not answer. -/
inductive PlatformFailure
  | directoryMissing (path : String)
  | pageToken (token : String)
  | other (text : String)
deriving DecidableEq, Repr

/-- Why the store refuses an operation. -/
inductive StoreFailure
  | unknownMod (id : Nat)
  /-- A key is empty, or longer than the store allows. -/
  | badKey
  /-- The storage itself fails, by what no transaction runs into here. -/
  | other (text : String)
deriving DecidableEq, Repr

/-- What can go wrong. -/
inductive Fault
  | malformed (cause : Malformation)
  | download (file reason : String)
  | storage (cause : StoreFailure)
  | configuration (cause : Misconfiguration)
  | platform (cause : PlatformFailure)
  | io
  | json
  | archive
  | panicked (text : String)
deriving DecidableEq, Repr

/-- The mark in front of every malformation. -/
def malformedMark : String := "malformed class or metadata: "

def Malformation.message : Malformation → String
  | .classFile defect => defect.message
  | .entry name defect => name ++ ": " ++ malformedMark ++ defect.message
  | .other text => text

def Misconfiguration.message : Misconfiguration → String
  | .zeroThreads => "download threads must be positive"
  | .zeroCeiling => "concurrency ceiling must be positive"
  | .zeroWeight => "batch weight must be positive"
  | .zeroPages => "max pages must be positive"
  | .other text => text

def PlatformFailure.message : PlatformFailure → String
  | .directoryMissing path => "platform directory not found: " ++ path
  | .pageToken token => "bad page token: " ++ Text.quoted token
  | .other text => text

def StoreFailure.message : StoreFailure → String
  | .unknownMod id => "storage error: unknown mod " ++ toString id
  | .badKey => "storage error"
  | .other text => "storage error: " ++ text

namespace Fault

def message : Fault → String
  | .malformed cause => malformedMark ++ cause.message
  | .download file reason => "download failed for " ++ file ++ ": " ++ reason
  | .storage cause => cause.message
  | .configuration cause => "invalid configuration: " ++ cause.message
  | .platform cause => "platform error: " ++ cause.message
  | .io => "IO error"
  | .json => "JSON error"
  | .archive => "archive error"
  | .panicked text => "task panicked: " ++ text

/-- Whether the next pass may try again what failed. -/
def isRetryable : Fault → Bool
  | .download _ _ | .storage _ => true
  | _ => false

def isDownload : Fault → Bool
  | .download _ _ => true
  | _ => false

/-- The fault of a task that stopped unexpectedly, with its reason if that is a text. -/
def ofPanic (reason : Option String) : Fault := .panicked (reason.getD "unknown panic payload")

/-- The fault of a task whose sum outgrows its word. -/
def sumTooGreat : Fault := .panicked "attempt to add with overflow"

/-- The fault of a task whose difference outgrows its word. -/
def differenceTooGreat : Fault := .panicked "attempt to subtract with overflow"

/-- The fault of a task that opens encrypted content without a password. -/
def passwordMissing : Fault :=
  .panicked "called `Result::unwrap()` on an `Err` value: InvalidPassword"

/-- A value that is left out after a fault, unless the fault is that the task itself stopped. -/
def leaveOut {α : Type} : Except Fault (Option α) → Except Fault (Option α)
  | .error (.panicked text) => .error (.panicked text)
  | .error _ => .ok none
  | .ok value => .ok value

/-- The fault of a class file with a defect. A count that outgrows its word is no defect of the file:
it stops the task. -/
def ofDefectAs (malformation : ClassFile.Defect → Malformation) : ClassFile.Defect → Fault
  | .countTooGreat => sumTooGreat
  | defect => .malformed (malformation defect)

def ofDefect : ClassFile.Defect → Fault := ofDefectAs .classFile

/-- The fault of a class file inside an archive. -/
def ofEntryDefect (name : String) : ClassFile.Defect → Fault := ofDefectAs (.entry name)

theorem isDownload_ofEntryDefect (name : String) (defect : ClassFile.Defect) :
    (ofEntryDefect name defect).isDownload = false := by
  cases defect <;> rfl

theorem isRetryable_of_isDownload {fault : Fault} (h : fault.isDownload = true) :
    fault.isRetryable = true := by
  cases fault <;> simp_all [isDownload, isRetryable]

end Fault

end ModCatalog
