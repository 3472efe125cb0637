import ModCatalog.Store.Change

/-!
# Aggregation

The rows of an artifact, gathered class by class: how often each member is used in all classes
together, and one row for each class name.
-/

namespace ModCatalog

open ClassFile

/-- What has been gathered; uses are kept one by one and summed up in the end. -/
structure Aggregate where
  uses : List (Reference × Nat)
  inheritance : Table String Inheritance
  classes : Table String ClassRow
  tags : List TagFile
  enumExtensions : List EnumExtension

namespace Aggregate

def empty : Aggregate := ⟨[], .empty, .empty, [], []⟩

/-- Add a class; of several with one name, the first gives the rows. -/
def addClass (aggregate : Aggregate) (record : ClassRecord) : Aggregate :=
  { aggregate with
    uses := record.references ++ aggregate.uses
    inheritance := aggregate.inheritance.putNew record.name record.inheritance
    classes := aggregate.classes.putNew record.name (.ofRecord record) }

def addClasses (aggregate : Aggregate) (records : List ClassRecord) : Aggregate :=
  records.foldl addClass aggregate

def addTags (aggregate : Aggregate) (tags : List TagFile) : Aggregate :=
  { aggregate with tags := aggregate.tags ++ tags }

def addEnumExtensions (aggregate : Aggregate) (extensions : List EnumExtension) : Aggregate :=
  { aggregate with enumExtensions := aggregate.enumExtensions ++ extensions }

/-- Whether one use is listed before another or names the same member. -/
def isBefore (a b : Reference × Nat) : Bool := !decide (b.1 < a.1)

/-- Rows of sorted uses: neighbours that name the same member become one row. -/
def sumRuns : List (Reference × Nat) → List ReferenceRow
  | [] => []
  | (reference, count) :: rest =>
      match sumRuns rest with
      | [] => [⟨reference, count⟩]
      | row :: rows =>
          if row.reference = reference then ⟨reference, count + row.count⟩ :: rows
          else ⟨reference, count⟩ :: row :: rows

/-- How often each member is used, in the order of references. -/
def referenceRows (aggregate : Aggregate) : List ReferenceRow :=
  sumRuns (aggregate.uses.mergeSort isBefore)

def classCount (aggregate : Aggregate) : Nat := aggregate.classes.size

/-- The batch that replaces all rows of a mod by those gathered. -/
def toBatch (aggregate : Aggregate) (knownHash : Option String)
    (metadata : Option ArtifactSummary) (indexedAt : Nat) : TrackBatch where
  deletesCurrent := true
  rows := {
    references := aggregate.referenceRows
    inheritance := aggregate.inheritance.values
    classes := aggregate.classes.values
    tags := aggregate.tags
    enumExtensions := aggregate.enumExtensions.map .ofExtension }
  knownHash := knownHash
  metadata := metadata
  indexedAt := indexedAt

end Aggregate

/-- When the rows of mods that were not seen are removed. -/
inductive CleanupMode
  /-- Never: what a partial pass does not see may still be there. -/
  | incremental
  | full
deriving DecidableEq, Repr

namespace CleanupMode

def text : CleanupMode → String
  | .incremental => "incremental"
  | .full => "full"

def ofText? (word : String) : Option CleanupMode :=
  [incremental, full].find? fun mode => mode.text = word

end CleanupMode

/-- The mods with rows that are not among those present. -/
def Store.absentIds (store : Store) (present : List Nat) : List Nat :=
  store.idsWithRows.filter fun id => !present.contains id

/-- Remove the rows of absent mods after a full and complete pass; gives the number of these
mods. -/
def Transaction.cleanup (present : List Nat) (mode : CleanupMode) (incomplete : Bool) :
    Transaction Nat := do
  if mode = .incremental || incomplete then return 0
  let absent := (← get).absentIds present
  absent.forM purgeRows
  return absent.length

end ModCatalog
