/-!
# Entries by recency

A bounded list of entries, the most recently used one first. Putting an entry in when the list is
full drops the least recently used one.
-/

namespace FieldCrypt

/-- At most `limit` entries, the most recently used one first. -/
structure Recency (κ α : Type) where
  limit : Nat
  entries : List (κ × α) := []
  deriving Repr, Inhabited

namespace Recency

variable {κ α : Type} [DecidableEq κ]

/-- The value of a key. Looking at it does not count as use. -/
def peek? (list : Recency κ α) (key : κ) : Option α :=
  (list.entries.find? fun entry => entry.1 = key).map Prod.snd

/-- The list without a key. -/
def erase (list : Recency κ α) (key : κ) : Recency κ α :=
  { list with entries := list.entries.filter fun entry => entry.1 ≠ key }

/-- The list with the entry of a key moved to the front, if there is one. -/
def touch (list : Recency κ α) (key : κ) : Recency κ α :=
  match list.peek? key with
  | some value => { list with entries := (key, value) :: (list.erase key).entries }
  | none => list

/-- Put an entry in front. An older one of the same key is replaced; otherwise the last entry of a
full list is dropped. -/
def put (list : Recency κ α) (key : κ) (value : α) : Recency κ α :=
  { list with entries := ((key, value) :: (list.erase key).entries).take list.limit }

def clear (list : Recency κ α) : Recency κ α := { list with entries := [] }

def size (list : Recency κ α) : Nat := list.entries.length

theorem find?_filter_ne (key other : κ) (entries : List (κ × α)) :
    (entries.filter fun entry => entry.1 ≠ key).find? (fun entry => entry.1 = other) =
      if key = other then none else entries.find? fun entry => entry.1 = other := by
  induction entries with
  | nil => simp
  | cons entry rest ih =>
    by_cases hk : entry.1 = key
    · rw [List.filter_cons_of_neg (by simp [hk]), ih]
      by_cases h : key = other
      · simp [h]
      · simp [h, hk]
    · rw [List.filter_cons_of_pos (by simp [hk]), List.find?_cons, List.find?_cons, ih]
      by_cases h : key = other
      · subst h
        simp [hk]
      · simp [h]

theorem peek?_erase (list : Recency κ α) (key other : κ) :
    (list.erase key).peek? other = if key = other then none else list.peek? other := by
  unfold erase peek?
  rw [find?_filter_ne]
  split <;> rfl

/-- Using an entry leaves what every key stands for. -/
theorem peek?_touch (list : Recency κ α) (key other : κ) :
    (list.touch key).peek? other = list.peek? other := by
  unfold touch
  split
  · rename_i value found
    by_cases h : key = other
    · subst h
      simp [peek?, ← found]
    · have kept := peek?_erase list key other
      rw [if_neg h] at kept
      rw [← kept]
      simp [peek?, h]
  · rfl

/-- An entry that was put in is there, if anything can be. -/
theorem peek?_put_self (list : Recency κ α) (key : κ) (value : α) (room : 0 < list.limit) :
    (list.put key value).peek? key = some value := by
  obtain ⟨limit, hl⟩ : ∃ limit, list.limit = limit + 1 := ⟨list.limit - 1, by omega⟩
  simp [peek?, put, hl]

/-- What a key stands for after an entry was put in is that entry, or it stood for it before. -/
theorem peek?_of_put {list : Recency κ α} {key other : κ} {value found : α}
    (there : (list.put key value).peek? other = some found) :
    (other = key ∧ found = value) ∨ list.peek? other = some found := by
  obtain ⟨entry, held, rfl⟩ := Option.map_eq_some_iff.mp there
  have full : ((key, value) :: (list.erase key).entries).find? (fun entry => entry.1 = other) =
      some entry :=
    (List.take_prefix list.limit _).find?_eq_some held
  rw [List.find?_cons] at full
  split at full
  · rename_i same
    obtain rfl := Option.some.inj full
    exact .inl ⟨(of_decide_eq_true same).symm, rfl⟩
  · rename_i differ
    have kept : (list.erase key).peek? other = some entry.2 := congrArg (Option.map Prod.snd) full
    rw [peek?_erase, if_neg (of_decide_eq_false differ)] at kept
    exact .inr kept

/-- Never more entries than the limit after an entry was put in. -/
theorem size_put_le (list : Recency κ α) (key : κ) (value : α) :
    (list.put key value).size ≤ list.limit := by
  simp only [size, put, List.length_take]
  omega

end Recency

end FieldCrypt
