import ModCatalog.Aggregate

/-!
# Batches

The settings of one pass over a platform, and the report of what became of the files.
-/

namespace ModCatalog

/-- The settings of a pass. -/
structure BatchSettings where
  downloadThreads : Nat
  cleanup : CleanupMode
  maxPages : Nat
  keepsCaches : Bool
  /-- The directory for downloads as it is written. -/
  cacheDirectory : String
  gameVersion : String
deriving DecidableEq, Repr

namespace BatchSettings

/-- The number of downloads at a time where none is chosen. -/
def defaultDownloadThreads : Nat := 8

/-- The number of pages where none is chosen. -/
def defaultMaxPages : Nat := 20

/-- The settings of a pass for which nothing else is chosen. -/
def ofVersion (cacheDirectory gameVersion : String) : BatchSettings :=
  ⟨defaultDownloadThreads, .incremental, defaultMaxPages, true, cacheDirectory, gameVersion⟩

/-- Refuse settings with which nothing could be done. -/
def validate (settings : BatchSettings) : Except Fault Unit :=
  if settings.downloadThreads = 0 then .error (.configuration .zeroThreads)
  else if settings.maxPages = 0 then .error (.configuration .zeroPages)
  else .ok ()

end BatchSettings

/-- A file or candidate that failed. -/
structure FailedItem where
  item : String
  fault : Fault
deriving DecidableEq, Repr

/-- What became of the files of a pass. -/
structure BatchReport where
  platform : String
  gameVersion : String
  pages : Nat
  filesSeen : Nat
  /-- Files that an earlier pass has dealt with. -/
  alreadySeen : Nat
  downloadsFailed : Nat
  /-- Jars that are neither mods nor libraries. -/
  notMods : Nat
  candidates : Nat
  indexed : Nat
  linked : Nat
  skipped : Nat
  failed : List FailedItem
  /-- Whether pages were left when the limit was reached. -/
  truncated : Bool
  /-- The number of mods whose rows were removed. -/
  purged : Nat
deriving DecidableEq, Repr

/-- The report of a pass that has not begun. -/
def BatchReport.start (platform gameVersion : String) : BatchReport :=
  ⟨platform, gameVersion, 0, 0, 0, 0, 0, 0, 0, 0, 0, [], false, 0⟩

/-- What became of a candidate. -/
inductive Outcome
  | indexed (id : Nat)
  | linked (id : Nat)
  /-- Nothing was to be stored; the mod that holds a newer content is known if there is one. -/
  | skipped (id : Option Nat)
  | failed (item : FailedItem)
deriving DecidableEq, Repr

namespace Outcome

/-- The mod that a candidate was found to belong to. -/
def modId? : Outcome → Option Nat
  | .indexed id | .linked id => some id
  | .skipped id => id
  | .failed _ => none

def addTo (report : BatchReport) : Outcome → BatchReport
  | .indexed _ => { report with indexed := report.indexed + 1 }
  | .linked _ => { report with linked := report.linked + 1 }
  | .skipped _ => { report with skipped := report.skipped + 1 }
  | .failed item => { report with failed := report.failed ++ [item] }

end Outcome

end ModCatalog
