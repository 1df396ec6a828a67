/-!
# Separators

A list that is cut at a separator is cut in one way only when the separator is not in what stands
before it, or not in what stands behind it.
-/

namespace FieldCrypt

variable {α : Type} {separator : α} {front other rest tail : List α}

/-- What stands before the last separator is the same in both. -/
theorem append_cancel_of_last
    (whole : front ++ separator :: rest = other ++ separator :: tail)
    (last : separator ∉ rest) (otherLast : separator ∉ tail) : front = other := by
  obtain ⟨between, rfl, behind⟩ | ⟨between, rfl, behind⟩ := List.append_eq_append_iff.mp whole
  · cases between with
    | nil => exact (List.append_nil front).symm
    | cons head between =>
        obtain ⟨-, rfl⟩ := List.cons.inj behind
        exact (last (List.mem_append_right between List.mem_cons_self)).elim
  · cases between with
    | nil => exact List.append_nil other
    | cons head between =>
        obtain ⟨-, rfl⟩ := List.cons.inj behind
        exact (otherLast (List.mem_append_right between List.mem_cons_self)).elim

/-- What stands before a separator begins with all that has none. -/
theorem exists_of_append_eq_append_cons (whole : front ++ rest = other ++ separator :: tail)
    (without : separator ∉ front) :
    ∃ between, other = front ++ between ∧ rest = between ++ separator :: tail := by
  obtain ⟨between, found, behind⟩ | ⟨between, rfl, behind⟩ := List.append_eq_append_iff.mp whole
  · exact ⟨between, found, behind⟩
  · cases between with
    | nil => exact ⟨[], by rw [List.append_nil, List.append_nil], behind.symm⟩
    | cons head between =>
        obtain ⟨rfl, -⟩ := List.cons.inj behind
        exact (without (List.mem_append_right other List.mem_cons_self)).elim

/-- What stands before the first separator is the same in both. -/
theorem append_cancel_of_first
    (whole : front ++ separator :: rest = other ++ separator :: tail)
    (first : separator ∉ front) (otherFirst : separator ∉ other) : front = other := by
  obtain ⟨between, rfl, behind⟩ := exists_of_append_eq_append_cons whole first
  cases between with
  | nil => exact (List.append_nil front).symm
  | cons head between =>
      obtain ⟨rfl, -⟩ := List.cons.inj behind
      exact (otherFirst (List.mem_append_right front List.mem_cons_self)).elim

end FieldCrypt
