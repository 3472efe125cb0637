import ModCatalog.Fault

/-!
# Progress

What is told about a running batch: counts of its candidates and the errors in order of arrival.
-/

namespace ModCatalog

/-- Counts of what happened to the candidates of a batch, and the errors of some of them. -/
structure Progress where
  expected : Nat
  indexed : Nat
  stored : Nat
  skipped : Nat
  failed : Nat
  /-- Each failed item with its message. -/
  errors : List (String × String)
deriving DecidableEq, Repr

namespace Progress

def start : Progress := ⟨0, 0, 0, 0, 0, []⟩

def expect (progress : Progress) (items : List String) : Progress :=
  { progress with expected := progress.expected + items.length }

/-- The classes of a candidate were read. -/
def markIndexed (progress : Progress) : Progress :=
  { progress with indexed := progress.indexed + 1 }

/-- The data of a candidate were stored. -/
def markStored (progress : Progress) : Progress := { progress with stored := progress.stored + 1 }

/-- A candidate needed no indexing. -/
def markSkipped (progress : Progress) : Progress :=
  { progress with skipped := progress.skipped + 1 }

/-- A candidate failed. -/
def raise (progress : Progress) (item : String) (fault : Fault) : Progress :=
  { progress with
    failed := progress.failed + 1
    errors := progress.errors ++ [(item, fault.message)] }

end Progress

end ModCatalog
