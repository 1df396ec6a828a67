/-!
# Tables

A table holds one value for each of some keys. The three lookup lemmas say all that the operations
do.
-/

namespace FieldCrypt

/-- Values by key. Only the first entry of a key counts, and no operation adds a second one. -/
structure Table (κ α : Type) where
  entries : List (κ × α) := []
  deriving Repr, Inhabited

namespace Table

variable {κ α : Type} [DecidableEq κ]

/-- The value of a key among some entries. -/
def lookup (key : κ) : List (κ × α) → Option α
  | [] => none
  | (other, value) :: rest => if other = key then some value else lookup key rest

/-- The entries with the value of one key replaced, or added at the end. -/
def put (key : κ) (value : α) : List (κ × α) → List (κ × α)
  | [] => [(key, value)]
  | (other, held) :: rest =>
    if other = key then (key, value) :: rest else (other, held) :: put key value rest

def find? (table : Table κ α) (key : κ) : Option α := lookup key table.entries

def contains (table : Table κ α) (key : κ) : Bool := (table.find? key).isSome

def insert (table : Table κ α) (key : κ) (value : α) : Table κ α :=
  ⟨put key value table.entries⟩

def erase (table : Table κ α) (key : κ) : Table κ α :=
  ⟨table.entries.filter fun entry => entry.1 ≠ key⟩

/-- Change the value of a key, if it has one. -/
def modify (table : Table κ α) (key : κ) (change : α → α) : Table κ α :=
  match table.find? key with
  | some value => table.insert key (change value)
  | none => table

def size (table : Table κ α) : Nat := table.entries.length

theorem lookup_put (key other : κ) (value : α) (entries : List (κ × α)) :
    lookup other (put key value entries) =
      if key = other then some value else lookup other entries := by
  induction entries with
  | nil => simp [put, lookup]
  | cons entry rest ih =>
    obtain ⟨first, held⟩ := entry
    unfold put
    split
    · rename_i same
      subst same
      by_cases h : first = other <;> simp [lookup, h]
    · rename_i differ
      by_cases h : first = other
      · subst h
        simp [lookup, Ne.symm differ]
      · simp [lookup, h, ih]

theorem find?_insert (table : Table κ α) (key other : κ) (value : α) :
    (table.insert key value).find? other =
      if key = other then some value else table.find? other :=
  lookup_put key other value table.entries

theorem lookup_filter (key other : κ) (entries : List (κ × α)) :
    lookup other (entries.filter fun entry => entry.1 ≠ key) =
      if key = other then none else lookup other entries := by
  induction entries with
  | nil => simp [lookup]
  | cons entry rest ih =>
    obtain ⟨first, held⟩ := entry
    by_cases hk : first = key
    · subst hk
      simp only [ne_eq, not_true_eq_false, decide_false, Bool.false_eq_true, not_false_eq_true,
        List.filter_cons_of_neg]
      rw [ih]
      by_cases h : first = other <;> simp [lookup, h]
    · rw [List.filter_cons_of_pos (by simp [hk])]
      by_cases h : first = other
      · subst h
        simp [lookup, Ne.symm hk]
      · simp only [lookup, if_neg h]
        exact ih

theorem find?_erase (table : Table κ α) (key other : κ) :
    (table.erase key).find? other = if key = other then none else table.find? other :=
  lookup_filter key other table.entries

theorem find?_modify (table : Table κ α) (key other : κ) (change : α → α) :
    (table.modify key change).find? other =
      if key = other then (table.find? key).map change else table.find? other := by
  unfold modify
  split
  · rename_i value found
    rw [find?_insert, found]
    rfl
  · rename_i missing
    by_cases h : key = other
    · subst h
      simp [missing]
    · simp [h]

theorem length_put {key : κ} {entries : List (κ × α)} (missing : lookup key entries = none)
    (value : α) : (put key value entries).length = entries.length + 1 := by
  induction entries with
  | nil => rfl
  | cons entry rest ih =>
    obtain ⟨other, held⟩ := entry
    rw [lookup] at missing
    split at missing
    · cases missing
    · rename_i differ
      rw [put, if_neg differ]
      exact congrArg (· + 1) (ih missing)

/-- What is looked up is an entry. -/
theorem mem_of_lookup {key : κ} {value : α} {entries : List (κ × α)}
    (found : lookup key entries = some value) : (key, value) ∈ entries := by
  induction entries with
  | nil => cases found
  | cons entry rest ih =>
    obtain ⟨other, held⟩ := entry
    rw [lookup] at found
    split at found
    · rename_i same
      obtain rfl := Option.some.inj found
      exact same ▸ List.mem_cons_self
    · exact List.mem_cons_of_mem _ (ih found)

/-- A key that was not there makes one more. -/
theorem size_insert {table : Table κ α} {key : κ} (missing : table.find? key = none) (value : α) :
    (table.insert key value).size = table.size + 1 :=
  length_put missing value

end Table

end FieldCrypt
