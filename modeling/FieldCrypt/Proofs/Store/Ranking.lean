import FieldCrypt.Store.Recency
import Mathlib.Data.List.Nodup

/-!
# The order of use

No operation on a list of entries by recency makes a key occur twice or the list grow beyond its
limit. How many entries stand in front of one says how long it is safe: a use of any key and a new
entry bring at most one more in front of it, and it is dropped only when as many stand there as the
limit allows entries.
-/

namespace FieldCrypt.Recency

variable {κ α : Type} [DecidableEq κ] {list : Recency κ α} {key other : κ} {value : α}

/-- No key occurs twice, and there are no more entries than the limit. -/
structure Tidy (list : Recency κ α) : Prop where
  nodup : (list.entries.map Prod.fst).Nodup
  size_le : list.size ≤ list.limit

theorem mem_of_peek? (found : list.peek? key = some value) : (key, value) ∈ list.entries := by
  obtain ⟨⟨own, held⟩, first, rfl⟩ := Option.map_eq_some_iff.mp found
  have same : own = key := by simpa using List.find?_some first
  subst same
  exact List.mem_of_find?_eq_some first

/-- In a tidy list an entry is found under its key. -/
theorem Tidy.peek?_eq_some_iff (tidy : list.Tidy) :
    list.peek? key = some value ↔ (key, value) ∈ list.entries := by
  refine ⟨mem_of_peek?, fun there => ?_⟩
  have found : (list.peek? key).isSome := by
    rw [peek?, Option.isSome_map, List.find?_isSome]
    exact ⟨_, there, by simp⟩
  obtain ⟨held, found⟩ := Option.isSome_iff_exists.mp found
  have same := List.inj_on_of_nodup_map tidy.nodup (mem_of_peek? found) there rfl
  rw [found, (Prod.mk.inj same).2]

omit [DecidableEq κ] in
theorem tidy_of_entries_eq_nil (empty : list.entries = []) : list.Tidy where
  nodup := by simp [empty]
  size_le := by simp [size, empty]

theorem Tidy.erase (tidy : list.Tidy) (key : κ) : (list.erase key).Tidy where
  nodup := tidy.nodup.sublist (List.filter_sublist.map Prod.fst)
  size_le := Nat.le_trans (List.length_filter_le _ _) tidy.size_le

theorem not_mem_erase (list : Recency κ α) (key : κ) :
    key ∉ (list.erase key).entries.map Prod.fst := by
  simp [Recency.erase]

/-- An entry in front of what is left without its key. -/
theorem Tidy.nodup_cons (tidy : list.Tidy) (key : κ) (value : α) :
    (((key, value) :: (list.erase key).entries).map Prod.fst).Nodup :=
  List.nodup_cons.mpr ⟨not_mem_erase list key, (tidy.erase key).nodup⟩

theorem Tidy.touch (tidy : list.Tidy) (key : κ) : (list.touch key).Tidy := by
  unfold Recency.touch
  split
  · rename_i value found
    refine ⟨tidy.nodup_cons key value, ?_⟩
    -- The entry that moves to the front is missing from the others.
    have fewer : (list.erase key).entries.length < list.entries.length := by
      rw [Recency.erase, List.length_filter_lt_length_iff_exists]
      exact ⟨_, mem_of_peek? found, by simp⟩
    have bound := tidy.size_le
    simp only [size, List.length_cons] at bound ⊢
    omega
  · exact tidy

theorem Tidy.put (tidy : list.Tidy) (key : κ) (value : α) : (list.put key value).Tidy where
  nodup := (tidy.nodup_cons key value).sublist ((List.take_sublist _ _).map Prod.fst)
  size_le := size_put_le list key value

/-- The entry is there, and at most `ahead` entries stand in front of it, all of other keys. -/
def Stands (entries : List (κ × α)) (key : κ) (value : α) (ahead : Nat) : Prop :=
  ∃ before after, entries = before ++ (key, value) :: after ∧
    (∀ entry ∈ before, entry.1 ≠ key) ∧ before.length ≤ ahead

variable {ahead : Nat}

omit [DecidableEq κ] in
theorem Stands.mono {entries : List (κ × α)} (stands : Stands entries key value ahead) {more : Nat}
    (le : ahead ≤ more) : Stands entries key value more := by
  obtain ⟨before, after, split, others, bound⟩ := stands
  exact ⟨before, after, split, others, Nat.le_trans bound le⟩

/-- What stands in a list is found. -/
theorem Stands.peek?_eq (stands : Stands list.entries key value ahead) :
    list.peek? key = some value := by
  obtain ⟨before, after, split, others, -⟩ := stands
  have none : before.find? (fun entry => entry.1 = key) = none := by
    rw [List.find?_eq_none]
    intro entry there
    simpa using others entry there
  simp [peek?, split, List.find?_append, none]

/-- What was just used stands in front. -/
theorem stands_touch_self (found : list.peek? key = some value) :
    Stands (list.touch key).entries key value 0 := by
  refine ⟨[], (list.erase key).entries, ?_, nofun, Nat.le_refl 0⟩
  rw [touch, found]
  rfl

/-- An entry of another key that comes to the front moves this one back by one place. -/
theorem Stands.cons_erase (stands : Stands list.entries key value ahead) (differ : other ≠ key)
    (newer : α) : Stands ((other, newer) :: (list.erase other).entries) key value (ahead + 1) := by
  obtain ⟨before, after, split, others, bound⟩ := stands
  refine ⟨(other, newer) :: before.filter (fun entry => entry.1 ≠ other),
    after.filter (fun entry => entry.1 ≠ other), ?_, ?_, ?_⟩
  · rw [Recency.erase, split, List.filter_append,
      List.filter_cons_of_pos (by simpa using differ.symm), List.cons_append]
  · refine List.forall_mem_cons.mpr ⟨differ, fun entry there => ?_⟩
    exact others entry (List.mem_of_mem_filter there)
  · have fewer := List.length_filter_le (fun entry => decide (entry.1 ≠ other)) before
    rw [List.length_cons]
    omega

/-- A use of any key brings at most one more entry to the front. -/
theorem Stands.touch (stands : Stands list.entries key value ahead) (other : κ) :
    Stands (list.touch other).entries key value (ahead + 1) := by
  by_cases same : other = key
  · subst same
    exact (stands_touch_self stands.peek?_eq).mono (Nat.zero_le _)
  · cases found : list.peek? other with
    | none =>
        rw [Recency.touch, found]
        exact stands.mono (Nat.le_succ ahead)
    | some newer =>
        rw [Recency.touch, found]
        exact stands.cons_erase same newer

/-- So does a new entry of another key, and it drops this one only when the limit is reached. -/
theorem Stands.put (stands : Stands list.entries key value ahead) (differ : other ≠ key)
    (newer : α) (room : ahead + 1 < list.limit) :
    Stands (list.put other newer).entries key value (ahead + 1) := by
  obtain ⟨before, after, split, others, bound⟩ := stands.cons_erase differ newer
  obtain ⟨left, fits⟩ : ∃ left, list.limit = before.length + (left + 1) :=
    ⟨list.limit - before.length - 1, by omega⟩
  refine ⟨before, after.take left, ?_, others, bound⟩
  rw [Recency.put, split, fits, List.take_length_add_append, List.take_succ_cons]

end FieldCrypt.Recency
