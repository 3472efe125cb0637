/-!
# Tables

Association lists in the order in which keys were first written.  A table answers what was last
written under a key; the lemmas say how each operation changes the answers.
-/

namespace ModCatalog

/-- What is written under each key, oldest key first. -/
structure Table (κ α : Type) where
  entries : List (κ × α)
deriving DecidableEq, Repr

namespace Table

variable {κ α : Type}

/-- The table without entries. -/
def empty : Table κ α := ⟨[]⟩

instance : Inhabited (Table κ α) := ⟨empty⟩

/-- The number of keys. -/
def size (table : Table κ α) : Nat := table.entries.length

/-- The keys, oldest first. -/
def keys (table : Table κ α) : List κ := table.entries.map Prod.fst

/-- The values, oldest key first. -/
def values (table : Table κ α) : List α := table.entries.map Prod.snd

variable [DecidableEq κ]

/-- The first value under a key. -/
def lookup (key : κ) : List (κ × α) → Option α
  | [] => none
  | (k, value) :: rest => if key = k then some value else lookup key rest

/-- Write under a key: in place of the old value, or at the end. -/
def write (key : κ) (value : α) : List (κ × α) → List (κ × α)
  | [] => [(key, value)]
  | (k, old) :: rest => if key = k then (key, value) :: rest else (k, old) :: write key value rest

/-- What is written under a key. -/
def get? (table : Table κ α) (key : κ) : Option α := lookup key table.entries

def put (table : Table κ α) (key : κ) (value : α) : Table κ α := ⟨write key value table.entries⟩

/-- Write a value under a key unless there is one. -/
def putNew (table : Table κ α) (key : κ) (value : α) : Table κ α :=
  match table.get? key with
  | none => table.put key value
  | some _ => table

/-- The table with the given entries; the last of several with one key counts. -/
def ofList (entries : List (κ × α)) : Table κ α :=
  entries.foldl (fun table entry => table.put entry.1 entry.2) empty

def erase (table : Table κ α) (key : κ) : Table κ α :=
  ⟨table.entries.filter fun entry => entry.1 ≠ key⟩

/-- Remove a key if a value is written under it. -/
def eraseIf (table : Table κ α) (key : κ) (value : α) [DecidableEq α] : Table κ α :=
  if table.get? key = some value then table.erase key else table

/-- Remove the keys whose values satisfy a test. -/
def eraseWhere (table : Table κ α) (test : α → Bool) : Table κ α :=
  ⟨table.entries.filter fun entry => !(table.get? entry.1).any test⟩

def mapValues (table : Table κ α) (change : α → α) : Table κ α :=
  ⟨table.entries.map fun entry => (entry.1, change entry.2)⟩

@[simp] theorem get?_empty (key : κ) : (empty : Table κ α).get? key = none := rfl

theorem keys_write (key : κ) (value : α) (entries : List (κ × α)) :
    (write key value entries).map Prod.fst =
      if key ∈ entries.map Prod.fst then entries.map Prod.fst
      else entries.map Prod.fst ++ [key] := by
  induction entries with
  | nil => rfl
  | cons entry rest ih =>
      obtain ⟨k, old⟩ := entry
      unfold write
      by_cases hkey : key = k
      · simp [hkey]
      · by_cases hrest : key ∈ rest.map Prod.fst <;> simp [hkey, ih, hrest]

theorem keys_put (table : Table κ α) (key : κ) (value : α) :
    (table.put key value).keys =
      if key ∈ table.keys then table.keys else table.keys ++ [key] :=
  keys_write key value table.entries

theorem mem_write {key : κ} {value : α} {entries : List (κ × α)}
    {entry : κ × α} (h : entry ∈ write key value entries) :
    entry = (key, value) ∨ entry ∈ entries := by
  induction entries with
  | nil => exact Or.inl (List.mem_singleton.mp h)
  | cons first rest ih =>
      obtain ⟨k, old⟩ := first
      unfold write at h
      split at h
      · rcases List.mem_cons.mp h with rfl | hrest
        · exact Or.inl rfl
        · exact Or.inr (List.mem_cons_of_mem _ hrest)
      · rcases List.mem_cons.mp h with rfl | hrest
        · exact Or.inr List.mem_cons_self
        · rcases ih hrest with hnew | hold
          · exact Or.inl hnew
          · exact Or.inr (List.mem_cons_of_mem _ hold)

theorem mem_of_lookup {key : κ} {value : α} {entries : List (κ × α)}
    (h : lookup key entries = some value) : (key, value) ∈ entries := by
  induction entries with
  | nil => cases h
  | cons entry rest ih =>
      obtain ⟨k, old⟩ := entry
      unfold lookup at h
      split at h
      · next hkey =>
          cases h
          rw [hkey]
          exact List.mem_cons_self
      · exact List.mem_cons_of_mem _ (ih h)

/-- Where no key occurs twice, every entry is found. -/
theorem lookup_of_mem {key : κ} {value : α} {entries : List (κ × α)}
    (hkeys : (entries.map Prod.fst).Nodup) (h : (key, value) ∈ entries) :
    lookup key entries = some value := by
  induction entries with
  | nil => cases h
  | cons entry rest ih =>
      obtain ⟨k, old⟩ := entry
      obtain ⟨hnew, hrest⟩ := List.nodup_cons.mp hkeys
      unfold lookup
      rcases List.mem_cons.mp h with hfirst | hlater
      · cases hfirst
        exact if_pos rfl
      · have hkey : key ≠ k := by
          rintro rfl
          exact hnew (List.mem_map.mpr ⟨_, hlater, rfl⟩)
        rw [if_neg hkey]
        exact ih hrest hlater

theorem isSome_lookup (key : κ) (entries : List (κ × α)) :
    (lookup key entries).isSome = true ↔ key ∈ entries.map Prod.fst := by
  induction entries with
  | nil => simp [lookup]
  | cons entry rest ih =>
      obtain ⟨k, value⟩ := entry
      by_cases hk : key = k
      · simp [lookup, hk]
      · simp [lookup, hk, ih]

theorem mem_keys {table : Table κ α} {key : κ} :
    key ∈ table.keys ↔ (table.get? key).isSome = true :=
  (isSome_lookup key table.entries).symm

theorem lookup_write (key other : κ) (value : α) (entries : List (κ × α)) :
    lookup other (write key value entries) =
      if other = key then some value else lookup other entries := by
  induction entries with
  | nil => rfl
  | cons entry rest ih =>
      obtain ⟨k, old⟩ := entry
      unfold write
      by_cases hk : key = k
      · subst hk
        rw [if_pos rfl]
        unfold lookup
        split <;> rfl
      · rw [if_neg hk]
        unfold lookup
        rw [ih]
        by_cases ho : other = k
        · subst ho
          simp [Ne.symm hk]
        · simp [ho]

theorem write_write (key : κ) (old value : α) (entries : List (κ × α)) :
    write key value (write key old entries) = write key value entries := by
  induction entries with
  | nil => simp [write]
  | cons entry rest ih =>
      obtain ⟨k, first⟩ := entry
      by_cases hkey : key = k <;> simp [write, hkey, ih]

/-- Of two values written under one key, the later one stays. -/
@[simp] theorem put_put (table : Table κ α) (key : κ) (old value : α) :
    (table.put key old).put key value = table.put key value :=
  congrArg Table.mk (write_write key old value table.entries)

@[simp] theorem erase_erase (table : Table κ α) (key : κ) :
    (table.erase key).erase key = table.erase key := by
  unfold erase
  simp

@[simp] theorem get?_put (table : Table κ α) (key other : κ) (value : α) :
    (table.put key value).get? other = if other = key then some value else table.get? other :=
  lookup_write key other value table.entries

@[simp] theorem get?_erase (table : Table κ α) (key other : κ) :
    (table.erase key).get? other = if other = key then none else table.get? other := by
  obtain ⟨entries⟩ := table
  unfold erase get?
  dsimp only
  induction entries with
  | nil => simp [lookup]
  | cons entry rest ih =>
      obtain ⟨k, old⟩ := entry
      by_cases hk : k = key
      · subst hk
        rw [List.filter_cons_of_neg (by simp), ih]
        by_cases ho : other = k <;> simp [lookup, ho]
      · rw [List.filter_cons_of_pos (by simpa using hk)]
        unfold lookup
        rw [ih]
        by_cases ho : other = k
        · subst ho
          simp [hk]
        · simp [ho]

@[simp] theorem get?_eraseIf (table : Table κ α) (key other : κ) (value : α) [DecidableEq α] :
    (table.eraseIf key value).get? other =
      if other = key ∧ table.get? key = some value then none else table.get? other := by
  unfold eraseIf
  split <;> simp_all

@[simp] theorem get?_putNew (table : Table κ α) (key other : κ) (value : α) :
    (table.putNew key value).get? other =
      if other = key ∧ table.get? key = none then some value else table.get? other := by
  unfold putNew
  split <;> simp_all

theorem get?_foldl_put (keys : List κ) (table : Table κ α) (other : κ) (value : α) :
    (keys.foldl (fun table key => table.put key value) table).get? other =
      if other ∈ keys then some value else table.get? other := by
  induction keys generalizing table with
  | nil => simp
  | cons key rest ih =>
      rw [List.foldl_cons, ih, get?_put]
      by_cases hr : other ∈ rest
      · simp [hr]
      · by_cases hk : other = key <;> simp [hr, hk]

theorem get?_foldl_eraseIf (keys : List κ) (table : Table κ α) (other : κ) (value : α)
    [DecidableEq α] :
    (keys.foldl (fun table key => table.eraseIf key value) table).get? other =
      if other ∈ keys ∧ table.get? other = some value then none else table.get? other := by
  induction keys generalizing table with
  | nil => simp
  | cons key rest ih =>
      rw [List.foldl_cons, ih, get?_eraseIf]
      by_cases hk : other = key
      · subst hk
        by_cases hv : table.get? other = some value <;> simp [hv]
      · simp [hk]

theorem lookup_filter (keep : κ → Bool) (key : κ) (entries : List (κ × α)) :
    lookup key (entries.filter fun entry => keep entry.1) =
      if keep key then lookup key entries else none := by
  induction entries with
  | nil => simp [lookup]
  | cons entry rest ih =>
      obtain ⟨k, value⟩ := entry
      by_cases hk : key = k
      · subst hk
        by_cases hkeep : keep key = true <;> simp_all [lookup]
      · by_cases hkeep : keep k = true <;> simp_all [lookup]

@[simp] theorem get?_eraseWhere (table : Table κ α) (test : α → Bool) (key : κ) :
    (table.eraseWhere test).get? key = (table.get? key).filter fun value => !test value := by
  unfold eraseWhere get?
  dsimp only
  rw [lookup_filter (fun k => !(lookup k table.entries).any test)]
  cases lookup key table.entries <;> simp [Option.filter]

@[simp] theorem get?_mapValues (table : Table κ α) (change : α → α) (key : κ) :
    (table.mapValues change).get? key = (table.get? key).map change := by
  obtain ⟨entries⟩ := table
  unfold mapValues get?
  dsimp only
  induction entries with
  | nil => rfl
  | cons entry rest ih =>
      obtain ⟨k, value⟩ := entry
      by_cases hk : key = k <;> simp [lookup, hk, ih]

end Table

end ModCatalog
